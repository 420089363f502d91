import TpmLink.Proofs.Bus.Faults

/-!
# Waits in a trace

A wait shows in a trace as rounds: probes that yield nothing, each followed by a stall. It either
spends its whole budget on such rounds, or ends within the budget with a probe that yields more. How
far the budget goes is told by the word that the wait counts in. The two laws say that a wait times
out exactly in the first way, and succeeds exactly in the second.
-/

namespace TpmLink

/-- The trace is one successful read of a register, and the value is of that kind. -/
def Trace.Reads (addr : Nat) (width : Width) (kind : UInt64 → Prop) (trace : Trace) : Prop :=
  ∃ raw, trace = [.read addr width (.ok raw)] ∧ kind raw

namespace Poller

variable {poller : Poller} {miss hit : Trace → Prop} {timeout : Nat} {trace : Trace}

/-- Probes, each followed by a stall. -/
def rounds (poller : Poller) (probes : List Trace) : Trace :=
  probes.flatMap fun probe => probe ++ [.stall poller.quantum]

/-- The whole budget is spent on probes that yield nothing. -/
def Spends (poller : Poller) (miss : Trace → Prop) (timeout : Nat) (trace : Trace) : Prop :=
  ∃ misses, poller.GivesUp timeout misses.length ∧ (∀ probe ∈ misses, miss probe) ∧
    trace = poller.rounds misses

/-- Within the budget a probe yields something, and those before it yield nothing. -/
def Meets (poller : Poller) (miss hit : Trace → Prop) (timeout : Nat) (trace : Trace) : Prop :=
  ∃ misses last, poller.GoesOn timeout misses.length ∧ (∀ probe ∈ misses, miss probe) ∧
    hit last ∧ trace = poller.rounds misses ++ last

@[simp] theorem rounds_nil : poller.rounds [] = [] := rfl

@[simp] theorem rounds_cons (probe : Trace) (probes : List Trace) :
    poller.rounds (probe :: probes) =
      probe ++ .stall poller.quantum :: poller.rounds probes := by
  simp [rounds]

open Script

variable {α : Type} {probe : Script (Option α)}

/-- The rounds that a wait makes before it ends or gives up. -/
theorem runs_awaitWithin_rounds {misses : List Trace} {left : Nat} {back : Trace}
    {result : Except Failure α} (hmisses : ∀ miss ∈ misses, probe.Runs miss (.ok none))
    (h : (poller.awaitWithin probe left).Runs back result) :
    (poller.awaitWithin probe (misses.length + left)).Runs (poller.rounds misses ++ back)
      result := by
  induction misses with
  | nil => rwa [rounds_nil, List.nil_append, List.length_nil, Nat.zero_add]
  | cons miss misses ih =>
    obtain ⟨hmiss, hrest⟩ := List.forall_mem_cons.mp hmisses
    rw [rounds_cons, List.append_assoc, List.length_cons, Nat.add_right_comm]
    exact runs_bind_iff.mpr (.inr ⟨miss, _, none, rfl, hmiss,
      runs_stall_bind_iff.mpr ⟨_, rfl, ih hrest⟩⟩)

/-- However many probes there may be, rounds come first, and then the end or a last probe. -/
theorem exists_rounds_of_runs_awaitWithin {left : Nat} {result : Except Failure α}
    (h : (poller.awaitWithin probe left).Runs trace result) :
    ∃ misses, (∀ miss ∈ misses, probe.Runs miss (.ok none)) ∧
      ((misses.length = left ∧ trace = poller.rounds misses ∧ result = .error .timeout) ∨
        (misses.length < left ∧ ∃ last, trace = poller.rounds misses ++ last ∧
          ((∃ value, result = .ok value ∧ probe.Runs last (.ok (some value))) ∨
            ∃ failure, result = .error failure ∧ probe.Runs last (.error failure)))) := by
  induction left generalizing trace with
  | zero =>
    obtain ⟨rfl, rfl⟩ := runs_throw_iff.mp h
    exact ⟨[], by simp, .inl ⟨rfl, rfl, rfl⟩⟩
  | succ left ih =>
    rcases runs_bind_iff.mp h with ⟨failure, rfl, hfirst⟩ | ⟨first, rest, found, rfl, hfirst, hrest⟩
    · exact ⟨[], by simp, .inr ⟨Nat.succ_pos _, trace, rfl, .inr ⟨failure, rfl, hfirst⟩⟩⟩
    cases found with
    | some value =>
      obtain ⟨rfl, rfl⟩ := runs_pure_iff.mp hrest
      exact ⟨[], by simp, .inr ⟨Nat.succ_pos _, first, by simp, .inl ⟨value, rfl, hfirst⟩⟩⟩
    | none =>
      obtain ⟨later, rfl, hlater⟩ := runs_stall_bind_iff.mp hrest
      obtain ⟨misses, hmisses, hend⟩ := ih hlater
      refine ⟨first :: misses, List.forall_mem_cons.mpr ⟨hfirst, hmisses⟩, ?_⟩
      rcases hend with ⟨hlength, rfl, hresult⟩ | ⟨hlength, last, rfl, hlast⟩
      · exact .inl ⟨by rw [List.length_cons, hlength], by simp, hresult⟩
      · exact .inr ⟨Nat.succ_lt_succ hlength, last, by simp, hlast⟩

/-- However a wait goes, it makes rounds first; then it gives up or ends with a last probe. -/
theorem exists_rounds_of_runs_await {result : Except Failure α}
    (h : (poller.await timeout probe).Runs trace result) :
    ∃ misses, (∀ miss ∈ misses, probe.Runs miss (.ok none)) ∧
      ((poller.GivesUp timeout misses.length ∧ trace = poller.rounds misses ∧
          result = .error .timeout) ∨
        (poller.GoesOn timeout misses.length ∧ ∃ last, trace = poller.rounds misses ++ last ∧
          ((∃ value, result = .ok value ∧ probe.Runs last (.ok (some value))) ∨
            ∃ failure, result = .error failure ∧ probe.Runs last (.error failure)))) := by
  rw [await_eq] at h
  simp only [givesUp_iff, goesOn_iff]
  exact exists_rounds_of_runs_awaitWithin h

/-- A wait succeeds exactly where a probe yields the value within the budget. -/
theorem runs_await_ok_iff {value : α} :
    (poller.await timeout probe).Runs trace (.ok value) ↔
      poller.Meets (probe.Runs · (.ok none)) (probe.Runs · (.ok (some value))) timeout trace := by
  constructor
  · intro h
    obtain ⟨misses, hmisses, ⟨-, -, hresult⟩ | ⟨htime, last, rfl, ⟨found, hresult, hlast⟩ |
      ⟨failure, hresult, -⟩⟩⟩ := exists_rounds_of_runs_await h
    · cases hresult
    · cases hresult
      exact ⟨misses, last, htime, hmisses, hlast, rfl⟩
    · cases hresult
  · rintro ⟨misses, last, htime, hmisses, hlast, rfl⟩
    obtain ⟨left, hleft⟩ := Nat.exists_eq_add_of_lt (goesOn_iff.mp htime)
    have hend : (poller.awaitWithin probe (left + 1)).Runs last (.ok value) :=
      runs_bind_iff.mpr (.inr ⟨last, [], some value, by simp, hlast, runs_pure_iff.mpr ⟨rfl, rfl⟩⟩)
    have hwhole := runs_awaitWithin_rounds hmisses hend
    rw [await_eq, hleft]
    exact hwhole

/-- A wait whose probe does not time out by itself does so exactly where it spends its budget. -/
theorem runs_await_timeout_iff {failures : List Failure} (hprobe : probe.FailsWith failures)
    (htimeout : .timeout ∉ failures) :
    (poller.await timeout probe).Runs trace (.error .timeout) ↔
      poller.Spends (probe.Runs · (.ok none)) timeout trace := by
  constructor
  · intro h
    obtain ⟨misses, hmisses, ⟨hspent, rfl, -⟩ | ⟨-, last, -, ⟨value, hresult, -⟩ |
      ⟨failure, hresult, hlast⟩⟩⟩ := exists_rounds_of_runs_await h
    · exact ⟨misses, hspent, hmisses, rfl⟩
    · cases hresult
    · cases hresult
      exact absurd (hprobe last _ hlast) htimeout
  · rintro ⟨misses, hspent, hmisses, rfl⟩
    have hend : (poller.awaitWithin probe 0).Runs [] (.error .timeout) :=
      runs_throw_iff.mpr ⟨rfl, rfl⟩
    have hwhole := runs_awaitWithin_rounds hmisses hend
    rw [Nat.add_zero, givesUp_iff.mp hspent, List.append_nil] at hwhole
    rw [await_eq]
    exact hwhole

theorem Spends.congr {miss' : Trace → Prop} (hmiss : ∀ probe, miss probe ↔ miss' probe) :
    poller.Spends miss timeout trace ↔ poller.Spends miss' timeout trace := by
  rw [funext fun probe => propext (hmiss probe)]

theorem Meets.congr {miss' hit' : Trace → Prop} (hmiss : ∀ probe, miss probe ↔ miss' probe)
    (hhit : ∀ probe, hit probe ↔ hit' probe) :
    poller.Meets miss hit timeout trace ↔ poller.Meets miss' hit' timeout trace := by
  rw [funext fun probe => propext (hmiss probe), funext fun probe => propext (hhit probe)]

/-! ### Waits for bits -/

/-- All bits of `set` are one and all bits of `clear` are zero. -/
def Holds (set clear value : UInt32) : Prop := value &&& set = set ∧ value &&& clear = 0

theorem matching_iff {set clear value : UInt32} :
    matching value set clear = true ↔ Holds set clear value := by
  simp [matching, Holds]

/-- The whole budget is spent on reads of a register that do not yield what is wanted. -/
def Misses (poller : Poller) (addr : Nat) (width : Width) (wanted : UInt64 → Prop)
    (timeout : Nat) (trace : Trace) : Prop :=
  poller.Spends (Trace.Reads addr width fun raw => ¬ wanted raw) timeout trace

/-- Within the budget a read of a register yields what is wanted, and those before it do not. -/
def Sees (poller : Poller) (addr : Nat) (width : Width) (wanted : UInt64 → Prop)
    (timeout : Nat) (trace : Trace) : Prop :=
  poller.Meets (Trace.Reads addr width fun raw => ¬ wanted raw) (Trace.Reads addr width wanted)
    timeout trace

/-- One probe of a wait for bits. -/
def probeBits (register : Script UInt32) (set clear : UInt32) : Script (Option Unit) := do
  let value ← register
  note (.polled value set clear)
  return if matching value set clear then some () else none

theorem waitBits_eq (poller : Poller) (register : Script UInt32) (set clear : UInt32)
    (timeout : Nat) :
    poller.waitBits register set clear timeout =
      poller.await timeout (probeBits register set clear) :=
  rfl

section
variable {register : Script UInt32} {addr : Nat} {width : Width} {cut : UInt64 → UInt32}
  {set clear : UInt32}

/-- A probe reads the register once and finds the bits or does not. -/
theorem runs_probeBits_iff {found : Option Unit}
    (hregister : ∀ trace value,
      register.Runs trace (.ok value) ↔ Trace.Reads addr width (fun raw => cut raw = value) trace) :
    (probeBits register set clear).Runs trace (.ok found) ↔
      Trace.Reads addr width
        (fun raw => found = if matching (cut raw) set clear then some () else none) trace := by
  rw [probeBits, runs_bind_ok_iff]
  constructor
  · rintro ⟨front, back, value, rfl, hfront, hback⟩
    obtain ⟨raw, rfl, rfl⟩ := (hregister _ _).mp hfront
    have hjudged := runs_note_bind_iff.mp hback
    obtain ⟨rfl, hfound⟩ := runs_pure_iff.mp hjudged
    cases hfound
    exact ⟨raw, rfl, rfl⟩
  · rintro ⟨raw, rfl, rfl⟩
    exact ⟨_, [], cut raw, rfl, (hregister _ _).mpr ⟨raw, rfl, rfl⟩,
      runs_note_bind_iff.mpr (runs_pure_iff.mpr ⟨rfl, rfl⟩)⟩

theorem runs_waitBits_ok_iff
    (hregister : ∀ trace value,
      register.Runs trace (.ok value) ↔ Trace.Reads addr width (fun raw => cut raw = value) trace) :
    (poller.waitBits register set clear timeout).Runs trace (.ok ()) ↔
      poller.Sees addr width (fun raw => Holds set clear (cut raw)) timeout trace := by
  rw [waitBits_eq, runs_await_ok_iff]
  refine Meets.congr (fun probe => ?_) fun probe => ?_
  · rw [runs_probeBits_iff hregister]
    simp [Trace.Reads, ← matching_iff]
  · rw [runs_probeBits_iff hregister]
    simp [Trace.Reads, ← matching_iff]

theorem runs_waitBits_timeout_iff (hfails : register.FailsWith [.io])
    (hregister : ∀ trace value,
      register.Runs trace (.ok value) ↔ Trace.Reads addr width (fun raw => cut raw = value) trace) :
    (poller.waitBits register set clear timeout).Runs trace (.error .timeout) ↔
      poller.Misses addr width (fun raw => Holds set clear (cut raw)) timeout trace := by
  have hprobe : (probeBits register set clear).FailsWith [.io] :=
    hfails.bind fun _ => (failsWith_note _).bind fun _ => failsWith_pure _
  rw [waitBits_eq, runs_await_timeout_iff hprobe (by decide)]
  refine Spends.congr fun probe => ?_
  rw [runs_probeBits_iff hregister]
  simp [Trace.Reads, ← matching_iff]

end

end Poller

end TpmLink
