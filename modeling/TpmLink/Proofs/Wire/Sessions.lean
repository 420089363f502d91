import TpmLink.Proofs.Wire.Requests

/-!
# Cursors side by side

A payload that is opened gets a cursor of its own, which can be asked in between requests to the
outer one, and may open payloads in its turn. However the requests are mixed, each cursor does what
it would do alone, so the bytes it moved over make up the beginning of its own buffer.
-/

namespace TpmLink

/-- A cursor and the bytes it was opened on. -/
structure Opened where
  buffer : Bytes
  cursor : Cursor

/-- The payload that was opened. -/
def Service.payload? (service : Service) : Option Bytes :=
  match service.result with
  | .ok (.sub inner) => some inner.rest
  | _ => none

/-- All cursors in the order in which they were opened, and all requests with the number of the
cursor that they went to. -/
structure Session where
  opened : List Opened
  log : List (Nat × Service)

namespace Session

variable {buffer : Bytes} {session : Session} {target : Nat} {request : Request}

/-- A single cursor, at the start of the bytes. -/
def start (buffer : Bytes) : Session := ⟨[⟨buffer, .ofBytes buffer⟩], []⟩

/-- What a result adds to the open cursors. -/
def opening : Except Malformed Answer → List Opened
  | .ok (.sub inner) => [⟨inner.rest, inner⟩]
  | _ => []

/-- A request to the cursor with that number; where there is none, nothing happens. -/
def call (session : Session) (target : Nat) (request : Request) : Session :=
  match session.opened[target]? with
  | none => session
  | some found =>
    let (result, after) := request.reader found.cursor
    { opened := session.opened.set target { found with cursor := after } ++ opening result
      log := session.log ++ [(target, ⟨request, result, found.cursor.position, after.position⟩)] }

def run (session : Session) (calls : List (Nat × Request)) : Session :=
  calls.foldl (fun session call => session.call call.1 call.2) session

/-- The requests that went to the cursor with that number. -/
def services (log : List (Nat × Service)) (target : Nat) : List Service :=
  (log.filter (·.1 == target)).map (·.2)

/-! ### One call -/

/-- What holds between any two calls. -/
structure Sound (buffer : Bytes) (session : Session) : Prop where
  /-- Each cursor did what it would do alone. -/
  alone : ∀ target found, session.opened[target]? = some found →
    (Cursor.ofBytes found.buffer).serve ((services session.log target).map Service.request) =
      (services session.log target, found.cursor)
  /-- Only open cursors were asked. -/
  targets : ∀ entry ∈ session.log, entry.1 < session.opened.length
  /-- The first cursor is that of the buffer, the others are those of the opened payloads. -/
  buffers : session.opened.map Opened.buffer =
    buffer :: session.log.filterMap (fun entry => entry.2.payload?)

theorem map_buffer_opening (service : Service) :
    (opening service.result).map Opened.buffer = service.payload?.toList := by
  obtain ⟨request, result, start, stop⟩ := service
  cases result with
  | error cause => rfl
  | ok answer => cases answer <;> rfl

theorem services_append (log : List (Nat × Service)) (entry : Nat × Service) (target : Nat) :
    services (log ++ [entry]) target =
      services log target ++ if entry.1 = target then [entry.2] else [] := by
  by_cases h : entry.1 = target <;>
    simp [services, h]

theorem services_eq_nil {log : List (Nat × Service)} (h : ∀ entry ∈ log, entry.1 < target) :
    services log target = [] := by
  rw [services, List.map_eq_nil_iff, List.filter_eq_nil_iff]
  intro entry hentry
  have hlt := h entry hentry
  simp only [beq_iff_eq]
  omega

/-- A payload is opened at its start. -/
theorem eq_ofBytes_of_reader {cursor after inner : Cursor}
    (h : request.reader cursor = (.ok (.sub inner), after)) : inner = .ofBytes inner.rest := by
  cases request with
  | sub max =>
    obtain ⟨found, middle, hsub, hfound⟩ := (Reader.bind_eq_ok_iff _ _ _ _ _).mp h
    obtain ⟨payload, last, -, hpayload⟩ := (Reader.bind_eq_ok_iff _ _ _ _ _).mp hsub
    cases hpayload
    cases hfound
    rfl
  | byte | word16 | word32 | bytes count | sized max | algorithm =>
    obtain ⟨found, middle, -, hfound⟩ := (Reader.bind_eq_ok_iff _ _ _ _ _).mp h
    cases hfound

theorem sound_start (buffer : Bytes) : Sound buffer (start buffer) := by
  refine ⟨fun target found hfound => ?_, ?_, rfl⟩
  · cases target with
    | zero =>
      cases hfound
      rfl
    | succ target => cases hfound
  · intro entry hentry
    cases hentry

theorem call_of_some {found : Opened} {result : Except Malformed Answer} {after : Cursor}
    (hfound : session.opened[target]? = some found)
    (hread : request.reader found.cursor = (result, after)) :
    session.call target request =
      { opened := session.opened.set target { found with cursor := after } ++ opening result
        log := session.log ++
          [(target, ⟨request, result, found.cursor.position, after.position⟩)] } := by
  rw [Session.call, hfound]
  simp only [hread]

theorem map_buffer_set {opened : List Opened} {found : Opened} {after : Cursor}
    (hfound : opened[target]? = some found) :
    (opened.set target { found with cursor := after }).map Opened.buffer =
      opened.map Opened.buffer := by
  obtain ⟨hlt, hat⟩ := List.getElem?_eq_some_iff.mp hfound
  apply List.ext_getElem?
  intro number
  simp only [List.getElem?_map, List.getElem?_set]
  by_cases hsame : target = number
  · subst hsame
    simp [hlt, hat]
  · simp [hsame]

/-- What is opened has not been asked for anything. -/
theorem alone_opening {found : Opened} {result : Except Malformed Answer} {cursor after : Cursor}
    (hread : request.reader cursor = (result, after)) (hfound : found ∈ opening result) :
    (Cursor.ofBytes found.buffer).serve [] = ([], found.cursor) := by
  cases result with
  | error cause => cases hfound
  | ok answer =>
    cases answer with
    | sub inner =>
      obtain rfl := List.mem_singleton.mp hfound
      rw [eq_ofBytes_of_reader hread]
      rfl
    | _ => cases hfound

/-- The cursor that was asked goes on as it would alone. -/
theorem Sound.alone_asked (h : Sound buffer session) {found : Opened}
    {result : Except Malformed Answer} {after : Cursor}
    (hfound : session.opened[target]? = some found)
    (hread : request.reader found.cursor = (result, after)) :
    (Cursor.ofBytes found.buffer).serve ((services session.log target ++
        [Service.mk request result found.cursor.position after.position]).map Service.request) =
      (services session.log target ++
        [⟨request, result, found.cursor.position, after.position⟩], after) := by
  rw [List.map_append, Cursor.serve_append, h.alone target found hfound]
  simp [Cursor.serve, hread]

/-- Nothing was asked of a cursor before it was opened. -/
theorem Sound.services_unopened (h : Sound buffer session) {number : Nat}
    (hnumber : session.opened.length ≤ number) : services session.log number = [] := by
  apply services_eq_nil
  intro entry hentry
  have hopen := h.targets entry hentry
  omega

theorem Sound.buffers_asked (h : Sound buffer session) {found : Opened} {after : Cursor}
    (hfound : session.opened[target]? = some found) (service : Service) :
    (session.opened.set target { found with cursor := after } ++
        opening service.result).map Opened.buffer =
      buffer :: (session.log ++ [(target, service)]).filterMap (fun entry => entry.2.payload?) := by
  rw [List.map_append, map_buffer_set hfound, h.buffers, List.filterMap_append, List.cons_append,
    map_buffer_opening]
  cases hpayload : service.payload? <;>
    simp [hpayload]

/-- The cursor that was asked goes on, one that is opened stands at its start, and the others are
left as they were. -/
theorem Sound.call (h : Sound buffer session) (target : Nat) (request : Request) :
    Sound buffer (session.call target request) := by
  cases hfound : session.opened[target]? with
  | none =>
    rw [Session.call, hfound]
    exact h
  | some found =>
    obtain ⟨result, after, hread⟩ : ∃ result after,
        request.reader found.cursor = (result, after) := ⟨_, _, rfl⟩
    rw [call_of_some hfound hread]
    have hlt : target < session.opened.length := (List.getElem?_eq_some_iff.mp hfound).1
    refine ⟨?_, ?_,
      h.buffers_asked hfound ⟨request, result, found.cursor.position, after.position⟩⟩
    · intro number other hother
      rw [services_append]
      by_cases hnumber : number < session.opened.length
      · rw [List.getElem?_append_left (by rw [List.length_set]; exact hnumber),
          List.getElem?_set] at hother
        by_cases hsame : target = number
        · subst hsame
          rw [if_pos rfl, if_pos hlt] at hother
          cases hother
          rw [if_pos rfl]
          exact h.alone_asked hfound hread
        · rw [if_neg hsame] at hother
          rw [if_neg hsame, List.append_nil]
          exact h.alone number other hother
      · have hne : target ≠ number := by omega
        rw [List.getElem?_append_right (by rw [List.length_set]; omega)] at hother
        rw [if_neg hne, List.append_nil, h.services_unopened (by omega)]
        exact alone_opening hread (List.mem_of_getElem? hother)
    · intro entry hentry
      rw [List.length_append, List.length_set]
      cases List.mem_append.mp hentry with
      | inl hold =>
        have hopen := h.targets entry hold
        omega
      | inr hnew =>
        obtain rfl := List.mem_singleton.mp hnew
        omega

theorem Sound.run (h : Sound buffer session) (calls : List (Nat × Request)) :
    Sound buffer (session.run calls) := by
  induction calls generalizing session with
  | nil => exact h
  | cons call calls ih => exact ih (h.call call.1 call.2)

/-! ### Any number of calls -/

/-- A cursor served its requests from the bytes of its own buffer, one after another and nothing in
between, as it would have done alone. -/
structure Faithful (buffer : Bytes) (services : List Service) (cursor : Cursor) : Prop where
  position_le : cursor.position ≤ buffer.length
  rest_eq : cursor.rest = buffer.drop cursor.position
  position_add_remaining : cursor.position + cursor.remaining = buffer.length
  serves : ∀ service ∈ services,
    service.request.Serves buffer service.start service.result service.stop
  refused : ∀ service ∈ services, ∀ cause, service.result = .error cause →
    service.stop = service.start ∧ cause.failure = .deviceBusy ∨
      service.stop = service.start + 2 ∧
        (service.request.max?.isSome ∧ cause.failure = .deviceBusy ∨
          service.request = .algorithm ∧ cause.failure = .notSupported)
  pieces : (services.map (Service.piece buffer)).flatten = buffer.take cursor.position
  alone : (Cursor.ofBytes buffer).serve (services.map Service.request) = (services, cursor)

theorem faithful_of_serve {services : List Service} {cursor : Cursor}
    (h : (Cursor.ofBytes buffer).serve (services.map Service.request) = (services, cursor)) :
    Faithful buffer services cursor := by
  obtain ⟨served, stop, hserved, hcovers⟩ :=
    Cursor.covers_serve (services.map Service.request) (Nat.zero_le buffer.length)
  obtain ⟨rfl, rfl⟩ := Prod.mk.inj (h.symm.trans hserved)
  have hstop := hcovers.stop_le
  constructor
  · exact hstop
  · rfl
  · change stop + (buffer.drop stop).length = buffer.length
    rw [List.length_drop]
    omega
  · exact hcovers.serves
  · intro service hservice cause hcause
    have hserves := hcovers.serves service hservice
    rw [hcause] at hserves
    exact hserves.refused
  · rw [hcovers.pieces]
    rfl
  · exact h

/-- However requests to a cursor and to those it opens are mixed, each cursor is faithful to its own
buffer: the first one to the whole, the others to the payloads in the order in which they were
opened. -/
theorem cursors_areFaithful (buffer : Bytes) (calls : List (Nat × Request)) :
    (∀ target found, ((start buffer).run calls).opened[target]? = some found →
        Faithful found.buffer (services ((start buffer).run calls).log target) found.cursor) ∧
      ((start buffer).run calls).opened.map Opened.buffer =
        buffer :: ((start buffer).run calls).log.filterMap (fun entry => entry.2.payload?) := by
  have hsound := (sound_start buffer).run calls
  constructor
  · intro target found hfound
    exact faithful_of_serve (hsound.alone target found hfound)
  · exact hsound.buffers

/-- Inside the payload a length of five is read with one byte left, and the next request gets that
byte. The outer cursor goes on behind the payload as if nothing had happened. -/
theorem cursors_areFaithful_resumed :
    let session := (start [0x00, 0x03, 0x00, 0x05, 0xAA, 0x00, 0x0B]).run
      [(0, .sub 8), (1, .sized 16), (0, .algorithm), (1, .byte)]
    session.opened[1]? = some ⟨[0x00, 0x05, 0xAA], ⟨3, []⟩⟩ ∧
      services session.log 1 = [⟨.sized 16, .error (.truncated 5 2 1), 0, 2⟩,
        ⟨.byte, .ok (.byte 0xAA), 2, 3⟩] ∧
      Faithful [0x00, 0x05, 0xAA] (services session.log 1) ⟨3, []⟩ := by
  intro session
  have hfound : session.opened[1]? = some ⟨[0x00, 0x05, 0xAA], ⟨3, []⟩⟩ := rfl
  exact ⟨hfound, rfl, (cursors_areFaithful _ _).1 1 _ hfound⟩

end Session

end TpmLink
