import TpmLink.Proofs.Bus.Trace
import TpmLink.Proofs.Wait.Rounds
import TpmLink.Transport.Response

/-!
# What a script can reach

A script stays within a kind of events if no run leaves it. The rules follow the ways in which
scripts are put together, so a phase is confined by confining its single accesses. A wait ends with
the probe that yields its value, and a sequence of attempts ends with the last of them.
-/

namespace TpmLink

namespace Script

variable {α β : Type} {kind kind' : Event → Prop}

/-- No run has an event outside the kind. -/
def Only (kind : Event → Prop) (script : Script α) : Prop :=
  ∀ trace result, script.Runs trace result → ∀ event ∈ trace, kind event

theorem Only.mono {script : Script α} (h : script.Only kind)
    (himp : ∀ event, kind event → kind' event) : script.Only kind' :=
  fun trace result hruns event hmem => himp event (h trace result hruns event hmem)

theorem only_done (result : Except Failure α) : (done result).Only kind := by
  intro trace found hruns
  obtain ⟨rfl, -⟩ := runs_done_iff.mp hruns
  exact fun _ hmem => absurd hmem List.not_mem_nil

theorem only_pure (value : α) : (pure value : Script α).Only kind := only_done _

theorem only_throw (failure : Failure) : (throw failure : Script α).Only kind := only_done _

theorem only_andThen {script : Script α} {next : Except Failure α → Script β}
    (hscript : script.Only kind) (hnext : ∀ result, (next result).Only kind) :
    (script.andThen next).Only kind := by
  intro trace result hruns
  obtain ⟨front, back, middle, rfl, hfront, hback⟩ := runs_andThen_iff.mp hruns
  intro event hmem
  rcases List.mem_append.mp hmem with hmem | hmem
  · exact hscript front middle hfront event hmem
  · exact hnext middle back result hback event hmem

theorem only_bind {script : Script α} {next : α → Script β} (hscript : script.Only kind)
    (hnext : ∀ value, (next value).Only kind) : (script >>= next).Only kind := by
  refine only_andThen hscript fun result => ?_
  cases result with
  | ok value => exact hnext value
  | error failure => exact only_done _

/-- The second part has to be confined only for the values that the first part can yield. -/
theorem only_bind_of_ok {script : Script α} {next : α → Script β} (hscript : script.Only kind)
    (hnext : ∀ value trace, script.Runs trace (.ok value) → (next value).Only kind) :
    (script >>= next).Only kind := by
  intro trace result hruns
  rcases runs_bind_iff.mp hruns with ⟨failure, -, hfront⟩ | ⟨front, back, value, rfl, hfront, hback⟩
  · exact hscript trace _ hfront
  · exact List.forall_mem_append.mpr
      ⟨hscript front _ hfront, hnext value front hfront back result hback⟩

/-- Where a second part is confined, a run of both is one of the first part with an end that is
confined, and has such an end only if the first part succeeds. -/
theorem exists_parts_of_runs_bind {script : Script α} {next : α → Script β} {trace : Trace}
    {result : Except Failure β} (hnext : ∀ value, (next value).Only kind)
    (h : (script >>= next).Runs trace result) :
    ∃ front back found, trace = front ++ back ∧ script.Runs front found ∧
      (∀ event ∈ back, kind event) ∧ (back ≠ [] → ∃ value, found = .ok value) := by
  rcases runs_bind_iff.mp h with ⟨failure, -, hfront⟩ | ⟨front, back, value, rfl, hfront, hback⟩
  · exact ⟨trace, [], .error failure, by simp, hfront, by simp, absurd rfl⟩
  · exact ⟨front, back, .ok value, rfl, hfront, hnext value back result hback,
      fun _ => ⟨value, rfl⟩⟩

theorem only_onTimeout {script next : Script α} (hscript : script.Only kind)
    (hnext : next.Only kind) : (onTimeout script next).Only kind := by
  intro trace result hruns
  rcases runs_onTimeout_iff.mp hruns with ⟨-, hfront⟩ | ⟨front, back, rfl, hfront, hback⟩
  · exact hscript trace result hfront
  · intro event hmem
    rcases List.mem_append.mp hmem with hmem | hmem
    · exact hscript front _ hfront event hmem
    · exact hnext back result hback event hmem

theorem only_note (notice : Notice) : (Journal.note notice : Script Unit).Only kind := by
  intro trace result hruns
  cases hruns with
  | note hrest => exact only_done _ trace result hrest

theorem only_stall {micros : Nat} (h : kind (.stall micros)) :
    (Clock.stall micros : Script Unit).Only kind := by
  intro trace result hruns
  cases hruns with
  | stall hrest =>
    obtain ⟨rfl, -⟩ := runs_done_iff.mp hrest
    simpa using h

theorem only_checked_read {addr : Nat} {width : Width} {cut : UInt64 → α}
    (h : ∀ answer, kind (.read addr width answer)) :
    (checked (read addr width fun answer => done (.ok (answer.map cut)))).Only kind := by
  intro trace result hruns
  obtain ⟨answer, rfl, -⟩ := runs_checked_read_iff.mp hruns
  simpa using h answer

theorem only_checked_write {addr : Nat} {width : Width} {value : UInt64}
    (h : ∀ answer, kind (.write addr width value answer)) :
    (checked (write addr width value fun answer => done (.ok answer))).Only kind := by
  intro trace result hruns
  obtain ⟨answer, rfl, -⟩ := runs_checked_write_iff.mp hruns
  simpa using h answer

/-- A script that does nothing on the bus has an empty trace. -/
theorem Only.eq_nil {script : Script α} (h : script.Only fun _ => False) {trace : Trace}
    {result : Except Failure α} (hruns : script.Runs trace result) : trace = [] :=
  List.eq_nil_iff_forall_not_mem.mpr (h trace result hruns)

/-- A write whose answer is only looked at takes one event. -/
theorem runs_write_bind {addr : Nat} {width : Width} {value : UInt64}
    {next : Except BusFault Unit → Script α} {trace : Trace} {result : Except Failure α}
    (hnext : ∀ answer, (next answer).Only fun _ => False)
    (h : (write addr width value (fun answer => done (.ok answer)) >>= next).Runs trace result) :
    ∃ answer, trace = [.write addr width value answer] := by
  cases h with
  | write answer hrest => exact ⟨answer, by rw [(hnext answer).eq_nil hrest]⟩

/-! ### Waits -/

theorem only_await {probe : Script (Option α)} (poller : Poller) (hprobe : probe.Only kind)
    (hstall : kind (.stall poller.quantum)) (timeout : Nat) :
    (poller.await timeout probe).Only kind := by
  have hwithin : ∀ left, (poller.awaitWithin probe left).Only kind := by
    intro left
    induction left with
    | zero => exact only_throw .timeout
    | succ left ih =>
      refine only_bind hprobe fun found => ?_
      cases found with
      | some value => exact only_pure value
      | none => exact only_bind (only_stall hstall) fun _ => ih
  rw [Poller.await_eq]
  exact hwithin _

/-- A wait that yields a value ends with the probe that yields it. -/
theorem runs_await_ok {probe : Script (Option α)} {poller : Poller} {timeout : Nat} {value : α}
    {trace : Trace} (h : (poller.await timeout probe).Runs trace (.ok value)) :
    ∃ front last, trace = front ++ last ∧ probe.Runs last (.ok (some value)) := by
  have hwithin : ∀ left trace, (poller.awaitWithin probe left).Runs trace (.ok value) →
      ∃ front last, trace = front ++ last ∧ probe.Runs last (.ok (some value)) := by
    intro left
    induction left with
    | zero =>
      intro trace hruns
      obtain ⟨-, hresult⟩ := runs_throw_iff.mp hruns
      cases hresult
    | succ left ih =>
      intro trace hruns
      obtain ⟨first, rest, found, rfl, hfirst, hrest⟩ := runs_bind_ok_iff.mp hruns
      cases found with
      | some value' =>
        obtain ⟨rfl, hresult⟩ := runs_pure_iff.mp hrest
        cases hresult
        exact ⟨[], first, by simp, hfirst⟩
      | none =>
        obtain ⟨later, rfl, hlater⟩ := runs_stall_bind_iff.mp hrest
        obtain ⟨front, last, rfl, hlast⟩ := ih later hlater
        exact ⟨first ++ .stall poller.quantum :: front, last, by simp, hlast⟩
  rw [Poller.await_eq] at h
  exact hwithin _ trace h

/-- Waiting for bits reads one register and lets time pass. -/
theorem only_waitBits {register : Script UInt32} (poller : Poller) (hregister : register.Only kind)
    (hstall : kind (.stall poller.quantum)) (set clear : UInt32) (timeout : Nat) :
    (poller.waitBits register set clear timeout).Only kind :=
  only_await poller (only_bind hregister fun _ => only_bind (only_note _) fun _ => only_pure _)
    hstall timeout

/-- A wait for bits that succeeds ends with reading them. -/
theorem runs_waitBits_ok {register : Script UInt32} {poller : Poller} {set clear : UInt32}
    {timeout : Nat} {trace : Trace}
    (h : (poller.waitBits register set clear timeout).Runs trace (.ok ())) :
    ∃ front last value, trace = front ++ last ∧ register.Runs last (.ok value) ∧
      value &&& set = set ∧ value &&& clear = 0 := by
  obtain ⟨front, last, rfl, hlast⟩ := runs_await_ok h
  obtain ⟨first, rest, value, rfl, hfirst, hrest⟩ := runs_bind_ok_iff.mp hlast
  have hjudged := runs_note_bind_iff.mp hrest
  obtain ⟨rfl, hresult⟩ := runs_pure_iff.mp hjudged
  refine ⟨front, first, value, by simp, hfirst, ?_⟩
  by_cases hmatch : Poller.matching value set clear
  · simpa [Poller.matching] using hmatch
  · simp [hmatch] at hresult

/-! ### Response headers -/

theorem judgeResponse_ok_le {header : Bytes} {capacity size : Nat} {tag : UInt16}
    (h : judgeResponse header capacity = .ok (tag, size)) : size ≤ capacity := by
  unfold judgeResponse at h
  split at h
  · cases h
  · dsimp only at h
    split at h
    · cases h
    · split at h
      · cases h
      next hfits =>
        cases h
        exact Nat.le_of_not_lt hfits

theorem only_acceptResponse {header : Bytes} {capacity : Nat} :
    (acceptResponse header capacity).Only kind := by
  unfold acceptResponse
  split
  · exact only_bind (only_note _) fun _ => only_pure _
  · dsimp only
    split
    · exact only_bind (only_note _) fun _ => only_throw _
    · exact only_throw _

/-- An accepted response fits the capacity. -/
theorem runs_acceptResponse_ok {header : Bytes} {capacity size : Nat} {trace : Trace}
    (h : (acceptResponse header capacity).Runs trace (.ok size)) : size ≤ capacity := by
  unfold acceptResponse at h
  split at h
  next tag size' hjudge =>
    have haccepted := runs_note_bind_iff.mp h
    obtain ⟨-, hsize⟩ := runs_pure_iff.mp haccepted
    cases hsize
    exact judgeResponse_ok_le hjudge
  next refusal _ =>
    have hrefused : ∀ trace, ¬ (throw refusal.failure : Script Nat).Runs trace (.ok size) := by
      intro trace hthrow
      obtain ⟨-, hresult⟩ := runs_throw_iff.mp hthrow
      cases hresult
    dsimp only at h
    split at h
    · exact absurd (runs_note_bind_iff.mp h) (hrefused trace)
    · exact absurd h (hrefused trace)

end Script

end TpmLink
