import TpmLink.Proofs.Bus.Reach
import TpmLink.Timing

/-!
# What a script spends

A script is bounded if no run leaves a kind of events, stalls more often than so many times or makes
more than so many accesses. The limits of parts add up, and a wait is limited by the number of its
probes, so one law for each phase says where it reaches and what it spends.
-/

namespace TpmLink

/-- How many probes of a register a budget allows. -/
def Timeouts.probes (timeouts : Timeouts) (micros : Nat) : Nat := timeouts.poller.probes micros

namespace Event

def isStall : Event → Bool
  | stall _ => true
  | _ => false

/-- How long an event lets time pass. -/
def micros : Event → Nat
  | stall micros => micros
  | _ => 0

end Event

namespace Trace

variable {kind : Event → Prop} {stalls stalls' accesses accesses' : Nat} {front back : Trace}

/-- How often time is let pass. -/
def stallCount (trace : Trace) : Nat := trace.countP fun event => event.isStall

/-- How often the bus is accessed. -/
def accessCount (trace : Trace) : Nat := trace.countP fun event => !event.isStall

/-- How long time is let pass in all. -/
def stalled : Trace → Nat
  | [] => 0
  | event :: trace => event.micros + stalled trace

/-- The trace keeps to a kind of events and to two limits. -/
structure Spends (kind : Event → Prop) (stalls accesses : Nat) (trace : Trace) : Prop where
  only : ∀ event ∈ trace, kind event
  stallCount_le : trace.stallCount ≤ stalls
  accessCount_le : trace.accessCount ≤ accesses

theorem spends_nil : Spends kind 0 0 [] := ⟨by simp, Nat.le_refl _, Nat.le_refl _⟩

theorem Spends.mono {trace : Trace} (h : trace.Spends kind stalls accesses)
    (hstalls : stalls ≤ stalls') (haccesses : accesses ≤ accesses') :
    trace.Spends kind stalls' accesses' :=
  ⟨h.only, Nat.le_trans h.stallCount_le hstalls, Nat.le_trans h.accessCount_le haccesses⟩

theorem Spends.append (hfront : front.Spends kind stalls accesses)
    (hback : back.Spends kind stalls' accesses') :
    Spends kind (stalls + stalls') (accesses + accesses') (front ++ back) where
  only := List.forall_mem_append.mpr ⟨hfront.only, hback.only⟩
  stallCount_le := by
    rw [stallCount, List.countP_append]
    exact Nat.add_le_add hfront.stallCount_le hback.stallCount_le
  accessCount_le := by
    rw [accessCount, List.countP_append]
    exact Nat.add_le_add hfront.accessCount_le hback.accessCount_le

/-- Stalls of one length add up to a multiple of it. -/
theorem stalled_eq {trace : Trace} {quantum : Nat}
    (h : ∀ micros, .stall micros ∈ trace → micros = quantum) :
    trace.stalled = trace.stallCount * quantum := by
  induction trace with
  | nil => rw [stalled, stallCount, List.countP_nil, Nat.zero_mul]
  | cons event trace ih =>
    have hrest := ih fun micros hmem => h micros (List.mem_cons_of_mem _ hmem)
    rw [stalled, hrest, stallCount, stallCount, List.countP_cons, Nat.add_mul, Nat.add_comm]
    cases event with
    | stall micros => simp [Event.isStall, Event.micros, h micros List.mem_cons_self]
    | read | write => simp [Event.isStall, Event.micros]

theorem Spends.stalled_le {trace : Trace} {quantum : Nat} (h : trace.Spends kind stalls accesses)
    (hstall : ∀ micros, kind (.stall micros) → micros = quantum) :
    trace.stalled ≤ stalls * quantum := by
  rw [stalled_eq fun micros hmem => hstall micros (h.only _ hmem)]
  exact Nat.mul_le_mul_right quantum h.stallCount_le

end Trace

namespace Script

variable {α β : Type} {kind : Event → Prop} {stalls stalls' accesses accesses' : Nat}

/-- Every run keeps to the kind and to the limits. -/
def Bounded (kind : Event → Prop) (stalls accesses : Nat) (script : Script α) : Prop :=
  ∀ trace result, script.Runs trace result → trace.Spends kind stalls accesses

theorem Bounded.mono {script : Script α} (h : script.Bounded kind stalls accesses)
    (hstalls : stalls ≤ stalls') (haccesses : accesses ≤ accesses') :
    script.Bounded kind stalls' accesses' :=
  fun trace result hruns => (h trace result hruns).mono hstalls haccesses

/-- What spends nothing keeps to any limits. -/
theorem Bounded.of_zero {script : Script α} (h : script.Bounded kind 0 0) :
    script.Bounded kind stalls accesses :=
  h.mono (Nat.zero_le _) (Nat.zero_le _)

/-- What does nothing on the bus spends nothing. -/
theorem Only.bounded {script : Script α} (h : script.Only fun _ => False) :
    script.Bounded kind 0 0 := by
  intro trace result hruns
  rw [h.eq_nil hruns]
  exact Trace.spends_nil

theorem bounded_pure (value : α) : (pure value : Script α).Bounded kind 0 0 :=
  (only_pure value).bounded

theorem bounded_throw (failure : Failure) : (throw failure : Script α).Bounded kind 0 0 :=
  (only_throw failure).bounded

theorem bounded_stall {micros : Nat} (h : kind (.stall micros)) :
    (Clock.stall micros : Script Unit).Bounded kind 1 0 := by
  intro trace result hruns
  cases hruns with
  | stall hrest =>
    obtain ⟨rfl, -⟩ := runs_done_iff.mp hrest
    exact ⟨List.forall_mem_singleton.mpr h, Nat.le_refl _, Nat.le_refl _⟩

theorem bounded_checked_read {addr : Nat} {width : Width} {cut : UInt64 → α}
    (h : ∀ answer, kind (.read addr width answer)) :
    (checked (read addr width fun answer => done (.ok (answer.map cut)))).Bounded kind 0 1 := by
  intro trace result hruns
  obtain ⟨answer, rfl, -⟩ := runs_checked_read_iff.mp hruns
  exact ⟨List.forall_mem_singleton.mpr (h answer), Nat.le_refl _, Nat.le_refl _⟩

theorem bounded_checked_write {addr : Nat} {width : Width} {value : UInt64}
    (h : ∀ answer, kind (.write addr width value answer)) :
    (checked (write addr width value fun answer => done (.ok answer))).Bounded kind 0 1 := by
  intro trace result hruns
  obtain ⟨answer, rfl, -⟩ := runs_checked_write_iff.mp hruns
  exact ⟨List.forall_mem_singleton.mpr (h answer), Nat.le_refl _, Nat.le_refl _⟩

/-- A write whose answer is only looked at is one access. -/
theorem bounded_write_bind {addr : Nat} {width : Width} {value : UInt64}
    {next : Except BusFault Unit → Script α} (h : ∀ answer, kind (.write addr width value answer))
    (hnext : ∀ answer, (next answer).Only fun _ => False) :
    (write addr width value (fun answer => done (.ok answer)) >>= next).Bounded kind 0 1 := by
  intro trace result hruns
  obtain ⟨answer, rfl⟩ := runs_write_bind hnext hruns
  exact ⟨List.forall_mem_singleton.mpr (h answer), Nat.le_refl _, Nat.le_refl _⟩

/-! ### Parts -/

theorem Bounded.andThen {script : Script α} {next : Except Failure α → Script β}
    (hscript : script.Bounded kind stalls accesses)
    (hnext : ∀ result, (next result).Bounded kind stalls' accesses') :
    (script.andThen next).Bounded kind (stalls + stalls') (accesses + accesses') := by
  intro trace result hruns
  obtain ⟨front, back, middle, rfl, hfront, hback⟩ := runs_andThen_iff.mp hruns
  exact (hscript front middle hfront).append (hnext middle back result hback)

/-- The second part has to be bounded only for the values that the first part can yield. -/
theorem Bounded.bind_of_ok {script : Script α} {next : α → Script β}
    (hscript : script.Bounded kind stalls accesses)
    (hnext : ∀ value trace, script.Runs trace (.ok value) →
      (next value).Bounded kind stalls' accesses') :
    (script >>= next).Bounded kind (stalls + stalls') (accesses + accesses') := by
  intro trace result hruns
  rcases runs_bind_iff.mp hruns with ⟨failure, -, hfront⟩ | ⟨front, back, value, rfl, hfront, hback⟩
  · exact (hscript trace _ hfront).mono (Nat.le_add_right _ _) (Nat.le_add_right _ _)
  · exact (hscript front _ hfront).append (hnext value front hfront back result hback)

theorem Bounded.bind {script : Script α} {next : α → Script β}
    (hscript : script.Bounded kind stalls accesses)
    (hnext : ∀ value, (next value).Bounded kind stalls' accesses') :
    (script >>= next).Bounded kind (stalls + stalls') (accesses + accesses') :=
  hscript.bind_of_ok fun value _ _ => hnext value

theorem Bounded.note_bind {notice : Notice} {next : Script α}
    (hnext : next.Bounded kind stalls accesses) :
    ((Journal.note notice : Script Unit) >>= fun _ => next).Bounded kind stalls accesses :=
  fun trace result hruns => hnext trace result (runs_note_bind_iff.mp hruns)

theorem Bounded.onTimeout {script next : Script α} (hscript : script.Bounded kind stalls accesses)
    (hnext : next.Bounded kind stalls' accesses') :
    (onTimeout script next).Bounded kind (stalls + stalls') (accesses + accesses') := by
  intro trace result hruns
  rcases runs_onTimeout_iff.mp hruns with ⟨-, hscript'⟩ | ⟨front, back, rfl, hfront, hback⟩
  · exact (hscript trace result hscript').mono (Nat.le_add_right _ _) (Nat.le_add_right _ _)
  · exact (hscript front _ hfront).append (hnext back result hback)

/-- Reporting a time-out and failing differently spends nothing more. -/
theorem Bounded.onTimeout_throw {script : Script α} {notice : Notice} {failure : Failure}
    (h : script.Bounded kind stalls accesses) :
    (TpmLink.onTimeout script (Journal.note notice >>= fun _ => throw failure)).Bounded kind stalls
      accesses :=
  (h.onTimeout (bounded_throw failure).note_bind).mono (Nat.le_refl _) (Nat.le_refl _)

theorem Bounded.ensuring {script : Script α} {exit : Script Unit}
    (hscript : script.Bounded kind stalls accesses) (hexit : exit.Bounded kind stalls' accesses') :
    (script.ensuring exit).Bounded kind (stalls + stalls') (accesses + accesses') := by
  intro trace result hruns
  obtain ⟨front, back, left, rfl, hfront, hback⟩ := runs_ensuring_iff.mp hruns
  exact (hscript front result hfront).append (hexit back left hback)

/-! ### Waits and attempts -/

/-- A wait makes as many probes as fit into its budget, and stalls once for each. -/
theorem bounded_await {poller : Poller} {probe : Script (Option α)}
    (hprobe : probe.Bounded kind 0 accesses) (hstall : kind (.stall poller.quantum))
    (timeout : Nat) :
    (poller.await timeout probe).Bounded kind (poller.probes timeout)
      (poller.probes timeout * accesses) := by
  have hwithin : ∀ left, (poller.awaitWithin probe left).Bounded kind left (left * accesses) := by
    intro left
    induction left with
    | zero => exact (bounded_throw _).of_zero
    | succ left ih =>
      have hsum : accesses + left * accesses = (left + 1) * accesses := by
        rw [Nat.succ_mul, Nat.add_comm]
      refine (hprobe.bind fun found =>
        (?_ : Bounded kind (left + 1) (left * accesses) _)).mono (by omega) (Nat.le_of_eq hsum)
      cases found with
      | some value => exact (bounded_pure value).of_zero
      | none => exact ((bounded_stall hstall).bind fun _ => ih).mono (by omega) (by omega)
  rw [Poller.await_eq]
  exact hwithin _

theorem bounded_waitBits {poller : Poller} {register : Script UInt32} {set clear : UInt32}
    (hregister : register.Bounded kind 0 1) (hstall : kind (.stall poller.quantum))
    (timeout : Nat) :
    (poller.waitBits register set clear timeout).Bounded kind (poller.probes timeout)
      (poller.probes timeout) := by
  have hprobes := Nat.mul_one (poller.probes timeout)
  refine (bounded_await ?_ hstall timeout).mono (Nat.le_refl _) (Nat.le_of_eq hprobes)
  exact (hregister.bind fun _ => (bounded_pure _).note_bind).mono (Nat.le_refl _) (Nat.le_refl _)

/-- Each attempt spends at most as much as one, and so does what is done before the next. -/
theorem bounded_retry {attempts : Nat} {beforeRetry : Nat → Failure → Script Unit}
    {body : Nat → Script α} (hbefore : ∀ number failure,
      (beforeRetry number failure).Bounded kind stalls' accesses')
    (hbody : ∀ number, (body number).Bounded kind stalls accesses) :
    (retry attempts beforeRetry body).Bounded kind (max 1 attempts * (stalls + stalls'))
      (max 1 attempts * (accesses + accesses')) := by
  have hfrom : ∀ left number, (retryFrom beforeRetry body number left).Bounded kind
      ((left + 1) * (stalls + stalls')) ((left + 1) * (accesses + accesses')) := by
    intro left
    induction left with
    | zero =>
      intro number
      exact (hbody number).mono (by omega) (by omega)
    | succ left ih =>
      intro number
      have hnext := (hbefore number .timeout).bind fun _ => ih (number + 1)
      refine ((hbody number).onTimeout hnext).mono ?_ ?_
      · rw [Nat.succ_mul (left + 1)]
        omega
      · rw [Nat.succ_mul (left + 1)]
        omega
  have hattempts : max 1 attempts = attempts - 1 + 1 := by omega
  rw [hattempts]
  exact hfrom (attempts - 1) 1

end Script

end TpmLink
