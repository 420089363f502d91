import TpmLink.Proofs.Bus.Effort
import TpmLink.Proofs.Bus.Waiting

/-!
# Waits in vain

A wait that spends its budget has let at least that much time pass, and all it did besides was to
read one register, each time with success and never with the value it waited for. As long as no sum
passes the word that the wait counts in, the stalls of the trace tell how far its budget goes.
-/

namespace TpmLink

/-- Time passes, or the register is read with success and its value is not what is wanted. -/
def Event.IsVain (addr : Nat) (width : Width) (wanted : UInt64 → Prop) : Event → Prop
  | .read addr' width' (.ok raw) => addr' = addr ∧ width' = width ∧ ¬ wanted raw
  | .stall _ => True
  | _ => False

/-- For so many microseconds at least a register is polled in vain. -/
structure Trace.Vain (addr : Nat) (width : Width) (wanted : UInt64 → Prop) (micros : Nat)
    (polls : Trace) : Prop where
  only : ∀ event ∈ polls, event.IsVain addr width wanted
  long : micros ≤ polls.stalled

namespace Trace

variable {addr : Nat} {width : Width} {wanted : UInt64 → Prop}

theorem stalled_append (s t : Trace) : (s ++ t).stalled = s.stalled + t.stalled := by
  induction s with
  | nil => rw [List.nil_append, stalled, Nat.zero_add]
  | cons event s ih => rw [List.cons_append, stalled, ih, stalled, Nat.add_assoc]

/-- A read lets no time pass. -/
theorem Reads.stalled {trace : Trace} (h : trace.Reads addr width wanted) : trace.stalled = 0 := by
  obtain ⟨raw, rfl, -⟩ := h
  rfl

/-- Waiting in vain only reads the register. -/
theorem Vain.within {micros : Nat} {polls : Trace} (h : polls.Vain addr width wanted micros) :
    ∀ event ∈ polls, event.Within (fun addr' => addr' = addr) fun _ => False := by
  intro event hmem
  have hvain := h.only event hmem
  cases event with
  | read addr' width' answer =>
    cases answer with
    | ok raw => exact hvain.1
    | error fault => exact hvain.elim
  | write => exact hvain
  | stall => trivial

end Trace

namespace Poller

variable {poller : Poller} {addr : Nat} {width : Width} {wanted : UInt64 → Prop} {timeout : Nat}
  {trace : Trace}

/-- Where probes let no time pass, each round lets one quantum pass. -/
theorem stalled_rounds {misses : List Trace} (h : ∀ miss ∈ misses, Trace.stalled miss = 0) :
    (poller.rounds misses).stalled = misses.length * poller.quantum := by
  induction misses with
  | nil => rw [rounds_nil, List.length_nil, Nat.zero_mul, Trace.stalled]
  | cons miss misses ih =>
    obtain ⟨hmiss, hrest⟩ := List.forall_mem_cons.mp h
    rw [rounds_cons, Trace.stalled_append, hmiss, Trace.stalled, ih hrest, List.length_cons,
      Nat.succ_mul]
    simp only [Event.micros]
    omega

/-- A budget is spent where probes yield nothing until the stalls come to it. -/
theorem spends_iff_stalled {miss : Trace → Prop} (hfits : poller.Fits timeout)
    (hmiss : ∀ probe, miss probe → probe.stalled = 0) :
    poller.Spends miss timeout trace ↔
      ∃ misses, (∀ probe ∈ misses, miss probe) ∧ trace = poller.rounds misses ∧
        timeout ≤ trace.stalled ∧ trace.stalled < timeout + poller.quantum := by
  unfold Spends
  simp only [hfits.givesUp_iff]
  constructor
  · rintro ⟨misses, htime, hmisses, rfl⟩
    rw [← stalled_rounds fun probe hmem => hmiss probe (hmisses probe hmem)] at htime
    exact ⟨misses, hmisses, rfl, htime⟩
  · rintro ⟨misses, hmisses, rfl, htime⟩
    rw [stalled_rounds fun probe hmem => hmiss probe (hmisses probe hmem)] at htime
    exact ⟨misses, htime, hmisses, rfl⟩

/-- A wait is met where a probe yields something before the stalls come to the budget. -/
theorem meets_iff_stalled {miss hit : Trace → Prop} (hfits : poller.Fits timeout)
    (hmiss : ∀ probe, miss probe → probe.stalled = 0)
    (hhit : ∀ probe, hit probe → probe.stalled = 0) :
    poller.Meets miss hit timeout trace ↔
      ∃ misses last, (∀ probe ∈ misses, miss probe) ∧ hit last ∧
        trace = poller.rounds misses ++ last ∧ trace.stalled < timeout := by
  have hstalled {misses : List Trace} {last : Trace} (hmisses : ∀ probe ∈ misses, miss probe)
      (hlast : hit last) :
      (poller.rounds misses ++ last).stalled = misses.length * poller.quantum := by
    rw [Trace.stalled_append, hhit last hlast,
      stalled_rounds fun probe hmem => hmiss probe (hmisses probe hmem), Nat.add_zero]
  unfold Meets
  simp only [hfits.goesOn_iff]
  constructor
  · rintro ⟨misses, last, htime, hmisses, hlast, rfl⟩
    rw [← hstalled hmisses hlast] at htime
    exact ⟨misses, last, hmisses, hlast, rfl, htime⟩
  · rintro ⟨misses, last, hmisses, hlast, rfl, htime⟩
    rw [hstalled hmisses hlast] at htime
    exact ⟨misses, last, htime, hmisses, hlast, rfl⟩

theorem misses_iff_stalled (hfits : poller.Fits timeout) :
    poller.Misses addr width wanted timeout trace ↔
      ∃ misses, (∀ miss ∈ misses, Trace.Reads addr width (fun raw => ¬ wanted raw) miss) ∧
        trace = poller.rounds misses ∧ timeout ≤ trace.stalled ∧
        trace.stalled < timeout + poller.quantum :=
  spends_iff_stalled hfits fun _ => Trace.Reads.stalled

theorem sees_iff_stalled (hfits : poller.Fits timeout) :
    poller.Sees addr width wanted timeout trace ↔
      ∃ misses last, (∀ miss ∈ misses, Trace.Reads addr width (fun raw => ¬ wanted raw) miss) ∧
        Trace.Reads addr width wanted last ∧ trace = poller.rounds misses ++ last ∧
        trace.stalled < timeout :=
  meets_iff_stalled hfits (fun _ => Trace.Reads.stalled) fun _ => Trace.Reads.stalled

theorem Misses.vain (h : poller.Misses addr width wanted timeout trace) :
    trace.Vain addr width wanted timeout := by
  obtain ⟨misses, hspent, hmisses, rfl⟩ := h
  constructor
  · intro event hmem
    obtain ⟨round, hround, hmem⟩ := List.mem_flatMap.mp hmem
    obtain ⟨raw, rfl, hraw⟩ := hmisses round hround
    rcases List.mem_append.mp hmem with hread | hstall
    · rw [List.mem_singleton.mp hread]
      exact ⟨rfl, rfl, hraw⟩
    · rw [List.mem_singleton.mp hstall]
      trivial
  · rw [stalled_rounds fun miss hmem => (hmisses miss hmem).stalled]
    exact hspent.le_mul

end Poller

end TpmLink
