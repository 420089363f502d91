import TpmLink.Proofs.Bus.Trace
import TpmLink.Proofs.Wire.Numerals
import TpmLink.Transport.Response

/-!
# What a response comes to

Both transports treat the bytes that a chip offers in the same way: the tag and the declared size
decide whether the response is refused, and otherwise how much of it is read and returned. The
verdict says so for a stream of bytes, without the way in which they are read.
-/

namespace TpmLink

/-- The low bytes of what the bus answers. -/
def lowBytes (values : List UInt64) : Bytes := values.map UInt64.toUInt8

@[simp] theorem length_lowBytes (values : List UInt64) :
    (lowBytes values).length = values.length := List.length_map _

theorem lowBytes_append (values values' : List UInt64) :
    lowBytes (values ++ values') = lowBytes values ++ lowBytes values' := List.map_append

namespace Response

/-- The size that the header declares. -/
def declaredSize (stream : Bytes) : Nat := beValue (slice stream 2 4)

/-- The tag is the one of version 1.2. -/
def IsLegacy (stream : Bytes) : Prop := stream.take 2 = [0x00, 0xC4]

instance (stream : Bytes) : Decidable (IsLegacy stream) :=
  inferInstanceAs (Decidable (stream.take 2 = [0x00, 0xC4]))

/-- The declared size, unless the tag is the one of version 1.2 or the size exceeds the capacity. -/
def admitted (stream : Bytes) (capacity : Nat) : Except Failure Nat :=
  if IsLegacy stream then .error .notSupported
  else if capacity < declaredSize stream then .error .bufferTooSmall
  else .ok (declaredSize stream)

/-- The response is as much of the stream as it declares. -/
def verdict (stream : Bytes) (capacity : Nat) : Except Failure Bytes :=
  (admitted stream capacity).map stream.take

/-- How many bytes of the stream are read: a header at least. -/
def demand (stream : Bytes) (capacity : Nat) : Nat :=
  match admitted stream capacity with
  | .ok size => max Header.size size
  | .error _ => Header.size

variable {stream header body : Bytes} {capacity size : Nat}

theorem verdict_of_admitted (h : admitted stream capacity = .ok size) :
    verdict stream capacity = .ok (stream.take size) := by
  rw [verdict, h]
  rfl

theorem demand_of_admitted (h : admitted stream capacity = .ok size) :
    demand stream capacity = max Header.size size := by
  rw [demand, h]

theorem verdict_of_refusal {failure : Failure} (h : admitted stream capacity = .error failure) :
    verdict stream capacity = .error failure ∧ demand stream capacity = Header.size := by
  rw [verdict, demand, h]
  exact ⟨rfl, rfl⟩

theorem verdict_eq_ok_iff {bytes : Bytes} :
    verdict stream capacity = .ok bytes ↔ ¬ IsLegacy stream ∧ declaredSize stream ≤ capacity ∧
      bytes = stream.take (declaredSize stream) := by
  unfold verdict admitted
  split_ifs with hlegacy hsize
  · exact iff_of_false (by simp [Except.map]) fun h => h.1 hlegacy
  · exact iff_of_false (by simp [Except.map]) fun h => Nat.not_le_of_lt hsize h.2.1
  · rw [Except.map, Except.ok.injEq, eq_comm]
    exact ⟨fun h => ⟨hlegacy, Nat.le_of_not_lt hsize, h⟩, fun h => h.2.2⟩

theorem verdict_ne_busy : verdict stream capacity ≠ .error .deviceBusy := by
  unfold verdict admitted
  split_ifs <;> simp [Except.map]

theorem demand_le : demand stream capacity ≤ max Header.size capacity := by
  unfold demand admitted
  split_ifs with hlegacy hsize
  · exact Nat.le_max_left _ _
  · exact Nat.le_max_left _ _
  · exact max_le_max_left _ (Nat.le_of_not_lt hsize)

theorem size_le_demand : Header.size ≤ demand stream capacity := by
  unfold demand
  split
  · exact Nat.le_max_left _ _
  · exact Nat.le_refl _

/-- Only the first six bytes decide. -/
theorem admitted_append (h : 6 ≤ header.length) :
    admitted (header ++ body) capacity = admitted header capacity := by
  have htag : IsLegacy (header ++ body) ↔ IsLegacy header := by
    rw [IsLegacy, IsLegacy, List.take_append_of_le_length (by omega)]
  have hsize : declaredSize (header ++ body) = declaredSize header := by
    rw [declaredSize, slice, List.drop_append_of_le_length (by omega),
      List.take_append_of_le_length (by rw [List.length_drop]; omega)]
    rfl
  simp only [admitted, htag, hsize]

theorem demand_append (h : 6 ≤ header.length) :
    demand (header ++ body) capacity = demand header capacity := by
  rw [demand, demand, admitted_append h]

/-- As many bytes as are read decide what the whole stream comes to. -/
theorem verdict_take (h : demand stream capacity ≤ stream.length) :
    verdict (stream.take (demand stream capacity)) capacity = verdict stream capacity := by
  have hleast : Header.size ≤ demand stream capacity := size_le_demand
  have hheader : Header.size = 10 := rfl
  -- The header is among what is read, so the cut does not change what it declares.
  have hadmitted : admitted (stream.take (demand stream capacity)) capacity =
      admitted stream capacity := by
    conv_rhs => rw [← List.take_append_drop (demand stream capacity) stream]
    rw [admitted_append (by rw [List.length_take]; omega)]
  cases hresult : admitted stream capacity with
  | error failure =>
    rw [(verdict_of_refusal hresult).1]
    exact (verdict_of_refusal (hadmitted.trans hresult)).1
  | ok size =>
    have htake : size ≤ demand stream capacity :=
      demand_of_admitted hresult ▸ Nat.le_max_right Header.size size
    rw [verdict_of_admitted hresult, verdict_of_admitted (hadmitted.trans hresult), List.take_take,
      Nat.min_eq_left htake]

/-- A beginning of the stream that is as long as it asks for is as long as the stream asks for, and
comes to the same. -/
theorem verdict_of_beginning {received : Bytes} (h : received <+: stream)
    (hlength : received.length = demand received capacity) :
    received = stream.take (demand stream capacity) ∧
      received.length = demand stream capacity ∧
      verdict received capacity = verdict stream capacity := by
  obtain ⟨rest, rfl⟩ := h
  have hheader : Header.size = 10 := rfl
  have hleast : Header.size ≤ demand received capacity := size_le_demand
  have hdemand : demand (received ++ rest) capacity = received.length := by
    rw [demand_append (by omega), hlength]
  have htake : (received ++ rest).take (demand (received ++ rest) capacity) = received := by
    rw [hdemand, List.take_left]
  have hfits : demand (received ++ rest) capacity ≤ (received ++ rest).length := by
    rw [hdemand, List.length_append]
    omega
  have hverdict := verdict_take hfits
  rw [htake] at hverdict
  exact ⟨htake.symm, hdemand.symm, hverdict⟩

/-- A header that is admitted with a size below its own is all there is. -/
theorem verdict_of_size_lt (hadmitted : admitted header capacity = .ok size)
    (hsize : size < Header.size) :
    verdict header capacity = .ok (header.take size) ∧ demand header capacity = Header.size :=
  ⟨verdict_of_admitted hadmitted,
    (demand_of_admitted hadmitted).trans (Nat.max_eq_left (Nat.le_of_lt hsize))⟩

/-- A header that is admitted with more is returned with all that follows it. -/
theorem verdict_of_size_le (hheader : header.length = Header.size)
    (hadmitted : admitted header capacity = .ok size) (hsize : Header.size ≤ size)
    (hbody : body.length = size - Header.size) :
    verdict (header ++ body) capacity = .ok (header ++ body) ∧
      demand (header ++ body) capacity = size := by
  have hwhole : admitted (header ++ body) capacity = .ok size := by
    rw [admitted_append (by rw [hheader]; decide), hadmitted]
  have hlength : (header ++ body).length = size := by
    rw [List.length_append, hheader, hbody]
    omega
  refine ⟨?_, (demand_of_admitted hwhole).trans (Nat.max_eq_right hsize)⟩
  rw [verdict_of_admitted hwhole, List.take_of_length_le (by omega)]

/-- The tag is compared as a number, the first two bytes as they are. -/
theorem tag_eq_legacyTag_iff (h : 2 ≤ header.length) :
    UInt16.ofNat (beValue (slice header 0 2)) = Header.legacyTag ↔ IsLegacy header := by
  have hlength : (slice header 0 2).length = 2 := by simp [slice, h]
  have hbytes : be16 Header.legacyTag = [0x00, 0xC4] := by decide
  rw [← be16_inj, be16_beValue hlength, hbytes]
  simp [slice, IsLegacy]

/-- A header is accepted or refused by its bytes alone, without an access. -/
theorem runs_acceptResponse_iff (h : header.length = Header.size) {trace : Trace}
    {result : Except Failure Nat} :
    (acceptResponse header capacity).Runs trace result ↔
      trace = [] ∧ result = admitted header capacity := by
  have hlength : ¬ header.length < Header.size := by omega
  have htwo : 2 ≤ header.length := by rw [h]; decide
  have htag := tag_eq_legacyTag_iff htwo
  unfold acceptResponse judgeResponse admitted
  rw [if_neg hlength]
  dsimp only
  by_cases hlegacy : IsLegacy header
  · rw [if_pos (htag.mpr hlegacy), if_pos hlegacy]
    exact Script.runs_note_bind_iff.trans Script.runs_throw_iff
  · rw [if_neg (mt htag.mp hlegacy), if_neg hlegacy]
    by_cases hfits : capacity < declaredSize header
    · have hrefused : capacity < beValue (slice header 2 4) := hfits
      rw [if_pos hrefused, if_pos hfits]
      exact Script.runs_note_bind_iff.trans Script.runs_throw_iff
    · have haccepted : ¬ capacity < beValue (slice header 2 4) := hfits
      rw [if_neg haccepted, if_neg hfits]
      exact Script.runs_note_bind_iff.trans Script.runs_pure_iff

theorem runs_acceptResponse_bind_iff {α : Type} {next : Nat → Script α}
    (h : header.length = Header.size) {trace : Trace} {result : Except Failure α} :
    (acceptResponse header capacity >>= next).Runs trace result ↔
      match admitted header capacity with
      | .error failure => trace = [] ∧ result = .error failure
      | .ok size => (next size).Runs trace result := by
  rw [Script.runs_bind_iff]
  simp only [runs_acceptResponse_iff h]
  cases admitted header capacity with
  | error failure =>
    constructor
    · rintro (⟨failure', rfl, rfl, hfailure⟩ | ⟨_, _, size, -, ⟨-, hsize⟩, -⟩)
      · cases hfailure
        exact ⟨rfl, rfl⟩
      · cases hsize
    · rintro ⟨rfl, rfl⟩
      exact .inl ⟨failure, rfl, rfl, rfl⟩
  | ok size =>
    constructor
    · rintro (⟨failure, -, -, hfailure⟩ | ⟨_, rest, size', rfl, ⟨rfl, hsize⟩, hrest⟩)
      · cases hfailure
      · cases hsize
        exact hrest
    · exact fun hrest => .inr ⟨[], trace, size, rfl, ⟨rfl, rfl⟩, hrest⟩

/-- Where the bytes behind a header are fetched as it asks for them, as much has been fetched with
them as it asks for in all, and the result is the verdict. -/
theorem verdict_of_body {values : List UInt64} {trace : Trace} {result : Except Failure Bytes}
    (fetch : Nat → Script Bytes) (fetched : List UInt64 → Trace → Prop)
    (hheader : values.length = Header.size) (hnone : fetched [] [])
    (hfetch : ∀ count, (fetch count).Runs trace result → ∃ more, more.length = count ∧
      fetched more trace ∧ result = .ok (lowBytes values ++ lowBytes more))
    (h : (acceptResponse (lowBytes values) capacity >>= fun size =>
      if size < Header.size then pure ((lowBytes values).take size)
      else fetch (size - Header.size)).Runs trace result) :
    ∃ more, fetched more trace ∧
      (values ++ more).length = demand (lowBytes (values ++ more)) capacity ∧
      result = verdict (lowBytes (values ++ more)) capacity := by
  have hlength : (lowBytes values).length = Header.size := by rw [length_lowBytes, hheader]
  rw [runs_acceptResponse_bind_iff hlength] at h
  cases hadmitted : admitted (lowBytes values) capacity with
  | error failure =>
    rw [hadmitted] at h
    obtain ⟨rfl, rfl⟩ := h
    obtain ⟨hverdict, hdemand⟩ := verdict_of_refusal hadmitted
    exact ⟨[], hnone, by rw [List.append_nil, hdemand, hheader],
      by rw [List.append_nil, hverdict]⟩
  | ok size =>
    rw [hadmitted] at h
    dsimp only at h
    split at h
    next hshort =>
      obtain ⟨rfl, rfl⟩ := Script.runs_pure_iff.mp h
      obtain ⟨hverdict, hdemand⟩ := verdict_of_size_lt hadmitted hshort
      exact ⟨[], hnone, by rw [List.append_nil, hdemand, hheader],
        by rw [List.append_nil, hverdict]⟩
    next hlong =>
      obtain ⟨more, hcount, hfetched, rfl⟩ := hfetch _ h
      obtain ⟨hverdict, hdemand⟩ := verdict_of_size_le hlength hadmitted (Nat.le_of_not_lt hlong)
        (by rw [length_lowBytes, hcount])
      refine ⟨more, hfetched, ?_, ?_⟩
      · rw [lowBytes_append, hdemand, List.length_append, hheader, hcount]
        omega
      · rw [lowBytes_append, hverdict]

/-! ### Outcomes -/

section
variable {givenUp unsated : Prop} {received : Bytes} {result : Except Failure Bytes}

end

end Response

end TpmLink
