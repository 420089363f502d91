import TpmLink.Proofs.Bus.Order
import TpmLink.Proofs.Bus.Reach

/-!
# Faults and failures

A strict script stops at the first fault: it does nothing more, and it fails with `io` just then.
The rules follow the ways in which scripts are put together, so a phase is strict where its single
accesses are. What a script can fail with at all is settled by the same kind of rules.
-/

namespace TpmLink

/-- The access was not made. -/
def Event.Failed : Event → Prop
  | read _ _ (.error _) => True
  | write _ _ _ (.error _) => True
  | _ => False

/-- The trace stops with its only event of that kind. -/
def Trace.StopsWith (kind : Event → Prop) (trace : Trace) : Prop :=
  ∃ (front : Trace) (last : Event), trace = front ++ [last] ∧ kind last ∧ front.Never kind

/-- Where no read fails, each read from there yields a byte. -/
theorem Trace.length_received {addrs : Nat → Prop} [DecidablePred addrs] {trace : Trace}
    (h : trace.Never fun event => event.ReadsFrom addrs ∧ event.Failed) :
    (trace.received addrs).length = trace.countP (Event.ReadsFrom addrs) := by
  rw [received, List.length_filterMap_eq_countP]
  refine List.countP_congr fun event hmem => ?_
  have hevent := h event hmem
  cases event with
  | read addr width answer =>
    cases answer with
    | ok raw => by_cases haddr : addrs addr <;> simp [Event.received?, Event.ReadsFrom, haddr]
    | error fault =>
      have haddr : ¬ addrs addr := fun haddr => hevent ⟨haddr, trivial⟩
      simp [Event.received?, Event.ReadsFrom, haddr]
  | _ => exact Iff.rfl

namespace Script

open Trace

variable {α β : Type} {fault : Event → Prop} {script : Script α}

/-! ### Strict scripts -/

/-- A fault is the last event, and the script fails with `io` just then. -/
def Strict (fault : Event → Prop) (script : Script α) : Prop :=
  ∀ trace result, script.Runs trace result →
    (result = .error .io ∧ trace.StopsWith fault) ∨ (result ≠ .error .io ∧ trace.Never fault)

theorem Strict.never {trace : Trace} {result : Except Failure α} (h : script.Strict fault)
    (hruns : script.Runs trace result) (hresult : result ≠ .error .io) : trace.Never fault := by
  rcases h trace result hruns with ⟨hio, -⟩ | ⟨-, hnever⟩
  · exact absurd hio hresult
  · exact hnever

/-- A script without faults that never fails with `io`. -/
theorem strict_of_only (honly : script.Only fun event => ¬ fault event)
    (hio : ∀ trace, ¬ script.Runs trace (.error .io)) : script.Strict fault := by
  refine fun trace result hruns => .inr ⟨?_, honly trace result hruns⟩
  rintro rfl
  exact hio trace hruns

theorem strict_done {result : Except Failure α} (h : result ≠ .error .io) :
    (done result).Strict fault := by
  intro trace found hruns
  obtain ⟨rfl, rfl⟩ := runs_done_iff.mp hruns
  exact .inr ⟨h, never_nil⟩

theorem strict_pure (value : α) : (pure value : Script α).Strict fault := strict_done (by simp)

theorem strict_throw {failure : Failure} (h : failure ≠ .io) :
    (throw failure : Script α).Strict fault :=
  strict_done (by simpa using h)

/-- What goes on after a strict script has to stop where that script stopped at a fault. -/
theorem Strict.andThen {next : Except Failure α → Script β} (hscript : script.Strict fault)
    (hstop : next (.error .io) = done (.error .io))
    (hnext : ∀ result, result ≠ .error .io → (next result).Strict fault) :
    (script.andThen next).Strict fault := by
  intro trace result hruns
  obtain ⟨front, back, middle, rfl, hfront, hback⟩ := runs_andThen_iff.mp hruns
  rcases hscript front middle hfront with ⟨rfl, hstops⟩ | ⟨hmiddle, hnever⟩
  · rw [hstop] at hback
    obtain ⟨rfl, rfl⟩ := runs_done_iff.mp hback
    rw [List.append_nil]
    exact .inl ⟨rfl, hstops⟩
  · rcases hnext middle hmiddle back result hback with ⟨hio, before, last, rfl, hlast, hbefore⟩ |
      ⟨hio, hrest⟩
    · exact .inl ⟨hio, front ++ before, last, by simp, hlast, never_append.mpr ⟨hnever, hbefore⟩⟩
    · exact .inr ⟨hio, never_append.mpr ⟨hnever, hrest⟩⟩

theorem Strict.bind {next : α → Script β} (hscript : script.Strict fault)
    (hnext : ∀ value, (next value).Strict fault) : (script >>= next).Strict fault := by
  refine hscript.andThen rfl fun result hresult => ?_
  cases result with
  | ok value => exact hnext value
  | error failure => exact strict_done (by simpa using hresult)

theorem Strict.onTimeout {next : Script α} (hscript : script.Strict fault)
    (hnext : next.Strict fault) : (onTimeout script next).Strict fault := by
  refine hscript.andThen rfl fun result hresult => ?_
  cases result with
  | ok value => exact strict_pure value
  | error failure =>
    cases failure with
    | timeout => exact hnext
    | io => exact absurd rfl hresult
    | _ => exact strict_throw (by decide)

theorem strict_note (notice : Notice) : (Journal.note notice : Script Unit).Strict fault := by
  refine strict_of_only (only_note notice) fun trace hruns => ?_
  cases hruns with
  | note hrest => cases hrest

theorem strict_stall {micros : Nat} (h : ¬ fault (.stall micros)) :
    (Clock.stall micros : Script Unit).Strict fault := by
  refine strict_of_only (only_stall h) fun trace hruns => ?_
  cases hruns with
  | stall hrest => cases hrest

theorem strict_checked_read {addr : Nat} {width : Width} {cut : UInt64 → α}
    (h : ∀ answer, fault (.read addr width answer) ↔ Event.Failed (.read addr width answer)) :
    (checked (read addr width fun answer => done (.ok (answer.map cut)))).Strict fault := by
  intro trace result hruns
  obtain ⟨answer, rfl, rfl⟩ := runs_checked_read_iff.mp hruns
  cases answer with
  | ok value => exact .inr ⟨by simp [checkedResult, Except.map], by simp [h, Event.Failed]⟩
  | error cause => exact .inl ⟨rfl, [], _, rfl, (h _).mpr trivial, never_nil⟩

theorem strict_checked_write {addr : Nat} {width : Width} {value : UInt64}
    (h : ∀ answer,
      fault (.write addr width value answer) ↔ Event.Failed (.write addr width value answer)) :
    (checked (write addr width value fun answer => done (.ok answer))).Strict fault := by
  intro trace result hruns
  obtain ⟨answer, rfl, rfl⟩ := runs_checked_write_iff.mp hruns
  cases answer with
  | ok value => exact .inr ⟨by simp [checkedResult], by simp [h, Event.Failed]⟩
  | error cause => exact .inl ⟨rfl, [], _, rfl, (h _).mpr trivial, never_nil⟩

/-- A wait stops where its probe stops. -/
theorem strict_await {probe : Script (Option α)} (poller : Poller) (hprobe : probe.Strict fault)
    (hstall : ¬ fault (.stall poller.quantum)) (timeout : Nat) :
    (poller.await timeout probe).Strict fault := by
  have hwithin : ∀ left, (poller.awaitWithin probe left).Strict fault := by
    intro left
    induction left with
    | zero => exact strict_throw (by decide)
    | succ left ih =>
      refine hprobe.bind fun found => ?_
      cases found with
      | some value => exact strict_pure value
      | none => exact (strict_stall hstall).bind fun _ => ih
  rw [Poller.await_eq]
  exact hwithin _

theorem strict_waitBits {register : Script UInt32} (poller : Poller)
    (hregister : register.Strict fault) (hstall : ¬ fault (.stall poller.quantum))
    (set clear : UInt32) (timeout : Nat) :
    (poller.waitBits register set clear timeout).Strict fault :=
  strict_await poller
    (hregister.bind fun _ => (strict_note _).bind fun _ => strict_pure _) hstall timeout

theorem strict_acceptResponse {header : Bytes} {capacity : Nat} :
    (acceptResponse header capacity).Strict fault := by
  have hfailure : ∀ refusal : ResponseRefusal, refusal.failure ≠ .io := by
    rintro (_ | _ | _) <;> simp [ResponseRefusal.failure]
  unfold acceptResponse
  split
  · exact (strict_note _).bind fun _ => strict_pure _
  · dsimp only
    split
    · exact (strict_note _).bind fun _ => strict_throw (hfailure _)
    · exact strict_throw (hfailure _)

/-! ### Failures -/

/-- The script fails with nothing else. -/
def FailsWith (failures : List Failure) (script : Script α) : Prop :=
  ∀ trace failure, script.Runs trace (.error failure) → failure ∈ failures

variable {failures : List Failure}

theorem FailsWith.mono {others : List Failure} (h : script.FailsWith failures)
    (hsubset : failures ⊆ others) : script.FailsWith others :=
  fun trace failure hruns => hsubset (h trace failure hruns)

/-- A failure that is neither of the two. -/
theorem not_mem_of_ne {result : Except Failure α} {failure : Failure}
    (hbusy : result ≠ .error .deviceBusy) (hio : result ≠ .error .io)
    (hresult : result = .error failure) : failure ∉ [Failure.deviceBusy, .io] := by
  subst hresult
  rintro (_ | ⟨_, _ | ⟨_, hnone⟩⟩)
  · exact hbusy rfl
  · exact hio rfl
  · cases hnone

theorem failsWith_pure (value : α) : (pure value : Script α).FailsWith failures := by
  intro trace failure hruns
  cases (runs_pure_iff.mp hruns).2

theorem failsWith_throw {failure : Failure} (h : failure ∈ failures) :
    (throw failure : Script α).FailsWith failures := by
  intro trace found hruns
  obtain ⟨-, hresult⟩ := runs_throw_iff.mp hruns
  cases hresult
  exact h

theorem failsWith_note (notice : Notice) :
    (Journal.note notice : Script Unit).FailsWith failures := by
  intro trace failure hruns
  cases hruns with
  | note hrest => cases hrest

theorem failsWith_stall (micros : Nat) : (Clock.stall micros : Script Unit).FailsWith failures := by
  intro trace failure hruns
  cases hruns with
  | stall hrest => cases hrest

theorem FailsWith.bind {next : α → Script β} (hscript : script.FailsWith failures)
    (hnext : ∀ value, (next value).FailsWith failures) : (script >>= next).FailsWith failures := by
  intro trace failure hruns
  rcases runs_bind_iff.mp hruns with ⟨found, hfound, hfront⟩ | ⟨_, back, value, -, -, hback⟩
  · cases hfound
    exact hscript trace failure hfront
  · exact hnext value back failure hback

/-- What goes on after a time-out answers for it. -/
theorem FailsWith.onTimeout {next : Script α} (hscript : script.FailsWith (.timeout :: failures))
    (hnext : next.FailsWith failures) : (onTimeout script next).FailsWith failures := by
  intro trace failure hruns
  rcases runs_onTimeout_iff.mp hruns with ⟨hresult, hfront⟩ | ⟨_, back, -, -, hback⟩
  · refine (List.mem_cons.mp (hscript trace failure hfront)).resolve_left ?_
    rintro rfl
    exact hresult rfl
  · exact hnext back failure hback

/-- A script whose time-out is turned into another failure succeeds as before. -/
theorem runs_onTimeout_throw_ok_iff {notice : Notice} {failure : Failure} {trace : Trace}
    {value : α} :
    (onTimeout script (Journal.note notice >>= fun _ => throw failure)).Runs trace (.ok value) ↔
      script.Runs trace (.ok value) := by
  rw [runs_onTimeout_throw_iff]
  constructor
  · rintro (⟨-, h⟩ | ⟨hresult, -⟩)
    · exact h
    · cases hresult
  · exact fun h => .inl ⟨by simp, h⟩

/-- It fails in the new way exactly where it timed out, if it does not fail so by itself. -/
theorem runs_onTimeout_throw_error_iff {notice : Notice} {failure : Failure} {trace : Trace}
    (hfails : script.FailsWith failures) (hnew : failure ∉ failures) :
    (onTimeout script (Journal.note notice >>= fun _ => throw failure)).Runs trace
        (.error failure) ↔ script.Runs trace (.error .timeout) := by
  rw [runs_onTimeout_throw_iff]
  constructor
  · rintro (⟨-, h⟩ | ⟨-, h⟩)
    · exact absurd (hfails _ _ h) hnew
    · exact h
  · exact fun h => .inr ⟨rfl, h⟩

theorem failsWith_checked_read {addr : Nat} {width : Width} {cut : UInt64 → α}
    (h : .io ∈ failures) :
    (checked (read addr width fun answer => done (.ok (answer.map cut)))).FailsWith failures := by
  intro trace failure hruns
  obtain ⟨answer, -, hresult⟩ := runs_checked_read_iff.mp hruns
  cases answer with
  | ok value => cases hresult
  | error cause =>
    cases hresult
    exact h

theorem failsWith_checked_write {addr : Nat} {width : Width} {value : UInt64}
    (h : .io ∈ failures) :
    (checked (write addr width value fun answer => done (.ok answer))).FailsWith failures := by
  intro trace failure hruns
  obtain ⟨answer, -, hresult⟩ := runs_checked_write_iff.mp hruns
  cases answer with
  | ok value => cases hresult
  | error cause =>
    cases hresult
    exact h

theorem failsWith_await {probe : Script (Option α)} (poller : Poller)
    (hprobe : probe.FailsWith failures) (h : .timeout ∈ failures) (timeout : Nat) :
    (poller.await timeout probe).FailsWith failures := by
  have hwithin : ∀ left, (poller.awaitWithin probe left).FailsWith failures := by
    intro left
    induction left with
    | zero => exact failsWith_throw h
    | succ left ih =>
      refine hprobe.bind fun found => ?_
      cases found with
      | some value => exact failsWith_pure value
      | none => exact (failsWith_stall _).bind fun _ => ih
  rw [Poller.await_eq]
  exact hwithin _

theorem failsWith_waitBits {register : Script UInt32} (poller : Poller)
    (hregister : register.FailsWith failures) (h : .timeout ∈ failures) (set clear : UInt32)
    (timeout : Nat) : (poller.waitBits register set clear timeout).FailsWith failures :=
  failsWith_await poller
    (hregister.bind fun _ => (failsWith_note _).bind fun _ => failsWith_pure _) h timeout

theorem failsWith_acceptResponse {header : Bytes} {capacity : Nat} :
    (acceptResponse header capacity).FailsWith [.notSupported, .bufferTooSmall] := by
  have hfailure : ∀ refusal : ResponseRefusal,
      refusal.failure ∈ [.notSupported, .bufferTooSmall] := by
    rintro (_ | _ | _) <;> simp [ResponseRefusal.failure]
  unfold acceptResponse
  split
  · exact (failsWith_note _).bind fun _ => failsWith_pure _
  · dsimp only
    split
    · exact (failsWith_note _).bind fun _ => failsWith_throw (hfailure _)
    · exact failsWith_throw (hfailure _)

end Script

end TpmLink
