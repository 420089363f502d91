import TpmLink.Proofs.Slices
import TpmLink.Proofs.Wire.Locality

/-!
# Requests to a cursor

A cursor answers a request with the bytes in front of it and moves over them, or refuses it. A
refusal leaves it where it was or, behind a length or an identifier that leads nowhere, two bytes
further. Over any sequence of requests the bytes it moved over make up the beginning of its buffer.
-/

namespace TpmLink

/-- What a cursor can be asked for. -/
inductive Request where
  | byte
  | word16
  | word32
  | bytes (count : Nat)
  | sized (max : Nat)
  | sub (max : Nat)
  | algorithm

/-- What a cursor answers with. -/
inductive Answer where
  | byte (value : UInt8)
  | word16 (value : UInt16)
  | word32 (value : UInt32)
  | bytes (payload : Bytes)
  | sub (inner : Cursor)
  | algorithm (algorithm : Algorithm)

namespace Request

open Cursor (inside)

def reader : Request → Reader Answer
  | byte => do return .byte (← Reader.byte)
  | word16 => do return .word16 (← Reader.word16)
  | word32 => do return .word32 (← Reader.word32)
  | bytes count => do return .bytes (← Reader.bytes count)
  | sized max => do return .bytes (← Reader.sized max)
  | sub max => do return .sub (← Reader.sub max)
  | algorithm => do return .algorithm (← Reader.algorithm)

/-- How many bytes are read before anything is decided. -/
def lead : Request → Nat
  | byte => 1
  | word16 | sized _ | sub _ | algorithm => 2
  | word32 => 4
  | bytes count => count

/-- The largest payload that is allowed behind a length. -/
def max? : Request → Option Nat
  | sized max | sub max => some max
  | _ => none

/-! ### Answers and refusals -/

/-- Where a word stands there are two bytes. -/
theorem le_of_slice_eq_be16 {buffer : Bytes} {start : Nat} {word : UInt16}
    (h : slice buffer start 2 = be16 word) : start + 2 ≤ buffer.length := by
  have hlength := congrArg List.length h
  rw [length_be16, slice, List.length_take, List.length_drop] at hlength
  omega

/-- The bytes answer the request: a number stands high byte first, a payload behind its length. -/
inductive Answers : Request → Bytes → Answer → Prop
  | byte (value : UInt8) : Answers byte [value] (.byte value)
  | word16 (value : UInt16) : Answers word16 (be16 value) (.word16 value)
  | word32 (value : UInt32) : Answers word32 (be32 value) (.word32 value)
  | bytes {payload : Bytes} {count : Nat} (hcount : payload.length = count) :
    Answers (bytes count) payload (.bytes payload)
  | sized {size : UInt16} {payload : Bytes} {max : Nat} (hsize : payload.length = size.toNat)
      (hmax : size.toNat ≤ max) : Answers (sized max) (be16 size ++ payload) (.bytes payload)
  | sub {size : UInt16} {payload : Bytes} {max : Nat} (hsize : payload.length = size.toNat)
      (hmax : size.toNat ≤ max) :
    Answers (sub max) (be16 size ++ payload) (.sub (.ofBytes payload))
  | algorithm (known : Algorithm) : Answers algorithm (be16 known.id) (.algorithm known)

/-- What a cursor at `start` makes of a request, and where it stands then. -/
inductive Serves (buffer : Bytes) (start : Nat) : Request → Except Malformed Answer → Nat → Prop
  | answered {request : Request} {taken : Bytes} {answer : Answer}
      (hanswers : request.Answers taken answer)
      (hwithin : start + taken.length ≤ buffer.length)
      (htaken : slice buffer start taken.length = taken) :
    Serves buffer start request (.ok answer) (start + taken.length)
  | short {request : Request} (h : buffer.length < start + request.lead) :
    Serves buffer start request
      (.error (.truncated request.lead start (buffer.length - start))) start
  | oversized {request : Request} {size : UInt16} {max : Nat} (hmax : request.max? = some max)
      (hsize : slice buffer start 2 = be16 size) (hover : max < size.toNat) :
    Serves buffer start request (.error (.oversized size.toNat start max)) (start + 2)
  | missing {request : Request} {size : UInt16} {max : Nat} (hmax : request.max? = some max)
      (hsize : slice buffer start 2 = be16 size) (hfits : size.toNat ≤ max)
      (hshort : buffer.length < start + 2 + size.toNat) :
    Serves buffer start request
      (.error (.truncated size.toNat (start + 2) (buffer.length - (start + 2)))) (start + 2)
  | unknown {id : UInt16} (hid : slice buffer start 2 = be16 id)
      (hunknown : ∀ known : Algorithm, known.id ≠ id) :
    Serves buffer start algorithm (.error (.unknownAlgorithm id)) (start + 2)

variable {buffer : Bytes} {start stop : Nat} {request : Request}
  {result : Except Malformed Answer} {cursor after : Cursor}

/-- The cursor never goes back and never leaves the buffer. -/
theorem Serves.within (h : Serves buffer start request result stop)
    (hstart : start ≤ buffer.length) : start ≤ stop ∧ stop ≤ buffer.length := by
  cases h with
  | answered | short => omega
  | oversized _ hword | missing _ hword | unknown hword =>
    have hlead := le_of_slice_eq_be16 hword
    omega

/-- A refusal says whose fault it is, and what it leaves behind. -/
theorem Serves.refused {cause : Malformed} (h : Serves buffer start request (.error cause) stop) :
    stop = start ∧ cause.failure = .deviceBusy ∨
      stop = start + 2 ∧ (request.max?.isSome ∧ cause.failure = .deviceBusy ∨
        request = .algorithm ∧ cause.failure = .notSupported) := by
  cases h with
  | short => exact .inl ⟨rfl, rfl⟩
  | oversized hmax | missing hmax => exact .inr ⟨rfl, .inl ⟨by rw [hmax]; rfl, rfl⟩⟩
  | unknown => exact .inr ⟨rfl, .inr ⟨rfl, rfl⟩⟩

/-! ### One request -/

theorem bytes_inside_of_lt {count : Nat} (hstart : start ≤ buffer.length)
    (h : buffer.length < start + count) : Reader.bytes count (inside buffer start) =
      (.error (.truncated count start (buffer.length - start)), inside buffer start) := by
  have hremaining : (inside buffer start).remaining = buffer.length - start := List.length_drop
  have hlt : (inside buffer start).remaining < count := by omega
  rw [Reader.bytes, if_pos hlt, hremaining]
  rfl

theorem bytes_inside_of_le {count : Nat} (h : start + count ≤ buffer.length) :
    Reader.bytes count (inside buffer start) =
      (.ok (slice buffer start count), inside buffer (start + count)) := by
  have hremaining : (inside buffer start).remaining = buffer.length - start := List.length_drop
  have hle : ¬ (inside buffer start).remaining < count := by omega
  rw [Reader.bytes, if_neg hle]
  simp only [inside, List.drop_drop]
  rfl

/-- Where the first bytes are missing, the cursor stays. -/
theorem reader_inside_of_lt (hstart : start ≤ buffer.length)
    (h : buffer.length < start + request.lead) : request.reader (inside buffer start) =
      (.error (.truncated request.lead start (buffer.length - start)), inside buffer start) := by
  have hlead := bytes_inside_of_lt hstart h
  cases request with
  | bytes count => exact Reader.bind_of_error hlead
  | byte | word16 | word32 => exact Reader.bind_of_error (Reader.bind_of_error hlead)
  | sized max | algorithm =>
    exact Reader.bind_of_error (Reader.bind_of_error (Reader.bind_of_error hlead))
  | sub max =>
    exact Reader.bind_of_error (Reader.bind_of_error (Reader.bind_of_error
      (Reader.bind_of_error hlead)))

theorem byte_inside {value : UInt8} (h : start + 1 ≤ buffer.length)
    (hvalue : slice buffer start 1 = [value]) :
    Reader.byte (inside buffer start) = (.ok value, inside buffer (start + 1)) := by
  have hone : UInt8.ofNat (beValue [value]) = value := by simp
  rw [Reader.byte, Reader.bind_of_ok (bytes_inside_of_le h), hvalue, hone]
  rfl

theorem exists_word16 (h : start + 2 ≤ buffer.length) :
    ∃ word, slice buffer start 2 = be16 word :=
  ⟨_, (be16_beValue (length_slice h)).symm⟩

theorem word16_inside {word : UInt16} (h : slice buffer start 2 = be16 word) :
    Reader.word16 (inside buffer start) = (.ok word, inside buffer (start + 2)) := by
  rw [Reader.word16, Reader.bind_of_ok (bytes_inside_of_le (le_of_slice_eq_be16 h)), h,
    beValue_be16, UInt16.ofNat_toNat]
  rfl

section
variable {size : UInt16} {max : Nat}

theorem sized_inside (h : slice buffer start 2 = be16 size) :
    Reader.sized max (inside buffer start) =
      if max < size.toNat then
        (.error (.oversized size.toNat start max), inside buffer (start + 2))
      else Reader.bytes size.toNat (inside buffer (start + 2)) := by
  rw [Reader.sized, Reader.bind_of_ok (word16_inside h)]
  by_cases hover : max < size.toNat
  · simp only [if_pos hover]
    rfl
  · simp only [if_neg hover]

/-- Both requests for a payload are refused alike. -/
theorem reader_of_sized_error {cause : Malformed} (hmax : request.max? = some max)
    (h : Reader.sized max cursor = (.error cause, after)) :
    request.reader cursor = (.error cause, after) := by
  cases request with
  | sized found =>
    cases hmax
    exact Reader.bind_of_error h
  | sub found =>
    cases hmax
    exact Reader.bind_of_error (Reader.bind_of_error h)
  | _ => cases hmax

/-- A payload that is allowed and all there answers both requests for one. -/
theorem exists_reader_of_sized {payload : Bytes} (hmax : request.max? = some max)
    (h : Reader.sized max cursor = (.ok payload, after)) (hsize : payload.length = size.toNat)
    (hfits : size.toNat ≤ max) :
    ∃ answer, request.reader cursor = (.ok answer, after) ∧
      request.Answers (be16 size ++ payload) answer := by
  cases request with
  | sized found =>
    cases hmax
    exact ⟨_, Reader.bind_of_ok h, .sized hsize hfits⟩
  | sub found =>
    cases hmax
    exact ⟨_, Reader.bind_of_ok (Reader.bind_of_ok h), .sub hsize hfits⟩
  | _ => cases hmax

theorem exists_serves_of_answers {count : Nat} {answer : Answer}
    (hcount : start + count ≤ buffer.length)
    (hreader : request.reader (inside buffer start) = (.ok answer, inside buffer (start + count)))
    (hanswers : request.Answers (slice buffer start count) answer) :
    ∃ result stop, request.reader (inside buffer start) = (result, inside buffer stop) ∧
      request.Serves buffer start result stop := by
  have hlength : (slice buffer start count).length = count := length_slice hcount
  refine ⟨.ok answer, start + (slice buffer start count).length, ?_, .answered hanswers ?_ ?_⟩
  · rw [hlength, hreader]
  · omega
  · rw [hlength]

theorem exists_serves_payload (hmax : request.max? = some max)
    (hlead : start + 2 ≤ buffer.length) :
    ∃ result stop, request.reader (inside buffer start) = (result, inside buffer stop) ∧
      request.Serves buffer start result stop := by
  obtain ⟨size, hsize⟩ := exists_word16 hlead
  have hsized : Reader.sized max (inside buffer start) = _ := sized_inside hsize
  by_cases hover : max < size.toNat
  · rw [if_pos hover] at hsized
    exact ⟨_, _, reader_of_sized_error hmax hsized, .oversized hmax hsize hover⟩
  rw [if_neg hover] at hsized
  have hfits : size.toNat ≤ max := by omega
  by_cases hshort : buffer.length < start + 2 + size.toNat
  · rw [bytes_inside_of_lt hlead hshort] at hsized
    exact ⟨_, _, reader_of_sized_error hmax hsized, .missing hmax hsize hfits hshort⟩
  have hall : start + 2 + size.toNat ≤ buffer.length := by omega
  rw [bytes_inside_of_le hall] at hsized
  obtain ⟨answer, hreader, hanswers⟩ :=
    exists_reader_of_sized hmax hsized (length_slice hall) hfits
  rw [← hsize, slice_append_slice] at hanswers
  rw [Nat.add_assoc] at hreader
  exact exists_serves_of_answers (by omega) hreader hanswers

end

theorem exists_serves_algorithm (hlead : start + 2 ≤ buffer.length) :
    ∃ result stop, algorithm.reader (inside buffer start) = (result, inside buffer stop) ∧
      algorithm.Serves buffer start result stop := by
  obtain ⟨id, hid⟩ := exists_word16 hlead
  cases hknown : Algorithm.ofId? id with
  | some known =>
    have hreader : Reader.algorithm (inside buffer start) =
        (.ok known, inside buffer (start + 2)) := by
      rw [Reader.algorithm, Reader.bind_of_ok (word16_inside hid), hknown]
      rfl
    have hanswers := Answers.algorithm known
    rw [Algorithm.id_of_ofId? hknown, ← hid] at hanswers
    exact exists_serves_of_answers hlead (Reader.bind_of_ok hreader) hanswers
  | none =>
    have hreader : Reader.algorithm (inside buffer start) =
        (.error (.unknownAlgorithm id), inside buffer (start + 2)) := by
      rw [Reader.algorithm, Reader.bind_of_ok (word16_inside hid), hknown]
      rfl
    refine ⟨_, _, Reader.bind_of_error hreader, .unknown hid fun known hsame => ?_⟩
    rw [← hsame, Algorithm.ofId?_id] at hknown
    cases hknown

/-- Every request is served, from wherever the cursor stands. -/
theorem exists_serves (request : Request) (hstart : start ≤ buffer.length) :
    ∃ result stop, request.reader (inside buffer start) = (result, inside buffer stop) ∧
      Serves buffer start request result stop := by
  by_cases hshort : buffer.length < start + request.lead
  · exact ⟨_, start, reader_inside_of_lt hstart hshort, .short hshort⟩
  have hlead : start + request.lead ≤ buffer.length := by omega
  have hread := bytes_inside_of_le hlead
  have hlength := length_slice hlead
  cases request with
  | byte =>
    obtain ⟨value, hvalue⟩ := List.length_eq_one_iff.mp hlength
    have hanswers := Answers.byte value
    rw [← hvalue] at hanswers
    exact exists_serves_of_answers hlead (Reader.bind_of_ok (byte_inside hlead hvalue)) hanswers
  | word16 =>
    obtain ⟨value, hvalue⟩ := exists_word16 hlead
    have hanswers := Answers.word16 value
    rw [← hvalue] at hanswers
    exact exists_serves_of_answers hlead (Reader.bind_of_ok (word16_inside hvalue)) hanswers
  | word32 =>
    have hanswers := Answers.word32 (.ofNat (beValue (slice buffer start word32.lead)))
    rw [be32_beValue hlength] at hanswers
    exact exists_serves_of_answers hlead (Reader.bind_of_ok (Reader.bind_of_ok hread)) hanswers
  | bytes count =>
    exact exists_serves_of_answers hlead (Reader.bind_of_ok hread) (.bytes hlength)
  | sized max => exact exists_serves_payload rfl hlead
  | sub max => exact exists_serves_payload rfl hlead
  | algorithm => exact exists_serves_algorithm hlead

end Request

/-! ### Any number of requests -/

/-- A request as it was served, with the positions of the cursor before and after. -/
structure Service where
  request : Request
  result : Except Malformed Answer
  start : Nat
  stop : Nat

/-- The bytes that the cursor moved over. -/
def Service.piece (buffer : Bytes) (service : Service) : Bytes :=
  slice buffer service.start (service.stop - service.start)

namespace Cursor

/-- Requests to one cursor, one after another. -/
def serve (cursor : Cursor) : List Request → List Service × Cursor
  | [] => ([], cursor)
  | request :: requests =>
    let (result, after) := request.reader cursor
    let (services, last) := after.serve requests
    (⟨request, result, cursor.position, after.position⟩ :: services, last)

variable {buffer : Bytes} {start : Nat}

theorem serve_append (cursor : Cursor) (requests more : List Request) :
    cursor.serve (requests ++ more) =
      ((cursor.serve requests).1 ++ ((cursor.serve requests).2.serve more).1,
        ((cursor.serve requests).2.serve more).2) := by
  induction requests generalizing cursor with
  | nil => rfl
  | cons request requests ih =>
    simp only [List.cons_append, serve, ih]

/-- What a cursor does from one place of its buffer to another. -/
structure Covers (buffer : Bytes) (start stop : Nat) (services : List Service) : Prop where
  start_le : start ≤ stop
  stop_le : stop ≤ buffer.length
  serves : ∀ service ∈ services,
    service.request.Serves buffer service.start service.result service.stop
  pieces : (services.map (Service.piece buffer)).flatten = slice buffer start (stop - start)

theorem covers_nil (hstart : start ≤ buffer.length) : Covers buffer start start [] := by
  refine ⟨le_refl start, hstart, by simp, ?_⟩
  simp [slice]

/-- A request takes the cursor to where the others start. -/
theorem Covers.cons {middle stop : Nat} {request : Request} {result : Except Malformed Answer}
    {services : List Service} (h : Covers buffer middle stop services)
    (hserves : request.Serves buffer start result middle) (hle : start ≤ middle) :
    Covers buffer start stop (⟨request, result, start, middle⟩ :: services) := by
  have hstop := h.start_le
  refine ⟨by omega, h.stop_le, ?_, ?_⟩
  · intro service hservice
    cases List.mem_cons.mp hservice with
    | inl hhead =>
      rw [hhead]
      exact hserves
    | inr htail => exact h.serves service htail
  · have hto : start + (middle - start) = middle := by omega
    have hsum : stop - start = middle - start + (stop - middle) := by omega
    rw [List.map_cons, List.flatten_cons, h.pieces, hsum, ← slice_append_slice, hto]
    rfl

theorem covers_serve (requests : List Request) (hstart : start ≤ buffer.length) :
    ∃ services stop, (inside buffer start).serve requests = (services, inside buffer stop) ∧
      Covers buffer start stop services := by
  induction requests generalizing start with
  | nil => exact ⟨[], start, rfl, covers_nil hstart⟩
  | cons request requests ih =>
    obtain ⟨result, middle, hreader, hserves⟩ := request.exists_serves hstart
    obtain ⟨hle, hmiddle⟩ := hserves.within hstart
    obtain ⟨services, stop, hserve, hcovers⟩ := ih hmiddle
    refine ⟨⟨request, result, start, middle⟩ :: services, stop, ?_, hcovers.cons hserves hle⟩
    simp only [serve, hreader, hserve]
    rfl

end Cursor

end TpmLink
