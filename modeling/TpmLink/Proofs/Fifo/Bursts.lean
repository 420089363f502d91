import TpmLink.Proofs.Bus.Waiting
import TpmLink.Proofs.Fifo.Order
import TpmLink.Proofs.Transport.Verdict

/-!
# Pacing by bursts

Bytes move through the data register one by one, each out of a budget. Where the budget is spent, a
new one is waited for: the burst count is read until it is not zero. A transfer that goes through is
paced in this way, and one that stops starves in such a wait.
-/

namespace TpmLink

namespace Fifo

open Script Trace

variable (link : Fifo)

/-- The burst count is read, low byte first. -/
def Counts (count : Nat) (trace : Trace) : Prop :=
  ∃ low high : UInt64,
    trace = [.read (FifoRegister.burstCount.addr link.base) .byte (.ok low),
      .read (FifoRegister.burstCount.addr link.base + 1) .byte (.ok high)] ∧
    low.toUInt8.toNat + 256 * high.toUInt8.toNat = count

/-- A wait for a burst in which the count becomes that within the budget. -/
def Grants (count : Nat) : Trace → Prop :=
  link.poller.Meets (link.Counts 0) (link.Counts count) link.timeouts.d

/-- A wait for a burst that reads only counts of zero for its whole budget. -/
def Starves : Trace → Prop := link.poller.Spends (link.Counts 0) link.timeouts.d

/-- Successful reads of the data register. -/
def receiving (values : List UInt64) : Trace :=
  values.map fun raw => .read link.data .byte (.ok raw)

/-- A move is allowed at once out of a budget, and behind the wait for a new one where there is
none. The last number is what is left behind the move. -/
def Allows (budget : Nat) (wait : Trace) (left : Nat) : Prop :=
  (wait = [] ∧ budget = left + 1) ∨ (budget = 0 ∧ link.Grants (left + 1) wait)

/-- The moves are made one after another, each as soon as it is allowed. The last number is the
budget that is left. -/
inductive Paced (link : Fifo) : Nat → Trace → Trace → Nat → Prop
  | done (budget : Nat) : Paced link budget [] [] budget
  | move {budget middle left : Nat} {wait moves trace : Trace} (event : Event)
      (allows : link.Allows budget wait middle) (rest : Paced link middle moves trace left) :
      Paced link budget (event :: moves) (wait ++ event :: trace) left

/-- What has been read from the data register, in order. -/
def received (trace : Trace) : Bytes := trace.received fun addr => addr = link.data

variable {link} {budget left : Nat} {moves moves' trace front back : Trace} {values : List UInt64}

theorem received_receiving : link.received (link.receiving values) = lowBytes values := by
  induction values with
  | nil => rfl
  | cons raw values ih =>
    have hraw : Event.received? (fun addr => addr = link.data) (.read link.data .byte (.ok raw)) =
        some raw.toUInt8 := if_pos rfl
    rw [receiving, List.map_cons, received, Trace.received, List.filterMap_cons, hraw]
    exact congrArg (raw.toUInt8 :: ·) ih

/-! ### Waits for a burst -/

theorem runs_readBurst_iff {count : Nat} :
    link.readBurst.Runs trace (.ok count) ↔ link.Counts count trace := by
  refine (runs_past_read_iff (by simp)).trans ?_
  constructor
  · rintro ⟨low, rest, rfl, hrest⟩
    obtain ⟨high, none, rfl, hnone⟩ := (runs_past_read_iff (by simp)).mp hrest
    obtain ⟨rfl, hcount⟩ := runs_pure_iff.mp hnone
    cases hcount
    exact ⟨low, high, rfl, rfl⟩
  · rintro ⟨low, high, rfl, rfl⟩
    exact ⟨low, _, rfl, (runs_past_read_iff (by simp)).mpr
      ⟨high, [], rfl, runs_pure_iff.mpr ⟨rfl, rfl⟩⟩⟩

theorem failsWith_readBurst : link.readBurst.FailsWith [.io] :=
  (failsWith_checked_read (List.mem_singleton.mpr rfl)).bind fun _ =>
    (failsWith_checked_read (List.mem_singleton.mpr rfl)).bind fun _ => failsWith_pure _

/-- One probe of a wait for a burst. -/
def probeBurst (link : Fifo) : Script (Option Nat) := do
  let count ← link.readBurst
  note (.fifoBurst count)
  return if count = 0 then none else some count

theorem awaitBurst_eq (link : Fifo) :
    link.awaitBurst = onTimeout (link.poller.await link.timeouts.d link.probeBurst) (do
      note .fifoNoBurst
      throw .deviceBusy) :=
  rfl

theorem runs_probeBurst_iff {found : Option Nat} :
    link.probeBurst.Runs trace (.ok found) ↔
      ∃ count, link.Counts count trace ∧ found = if count = 0 then none else some count := by
  rw [probeBurst, runs_bind_ok_iff]
  constructor
  · rintro ⟨first, rest, count, rfl, hfirst, hrest⟩
    have hjudged := runs_note_bind_iff.mp hrest
    obtain ⟨rfl, hfound⟩ := runs_pure_iff.mp hjudged
    cases hfound
    rw [List.append_nil]
    exact ⟨count, runs_readBurst_iff.mp hfirst, rfl⟩
  · rintro ⟨count, hcount, rfl⟩
    exact ⟨trace, [], count, by simp, runs_readBurst_iff.mpr hcount,
      runs_note_bind_iff.mpr (runs_pure_iff.mpr ⟨rfl, rfl⟩)⟩

theorem failsWith_probeBurst : link.probeBurst.FailsWith [.io] :=
  failsWith_readBurst.bind fun _ => (failsWith_note _).bind fun _ => failsWith_pure _

theorem runs_probeBurst_none_iff :
    link.probeBurst.Runs trace (.ok none) ↔ link.Counts 0 trace := by
  rw [runs_probeBurst_iff]
  constructor
  · rintro ⟨count, hcount, hnone⟩
    cases count with
    | zero => exact hcount
    | succ count => simp at hnone
  · exact fun h => ⟨0, h, rfl⟩

theorem runs_probeBurst_some_iff {count : Nat} :
    link.probeBurst.Runs trace (.ok (some count)) ↔ count ≠ 0 ∧ link.Counts count trace := by
  rw [runs_probeBurst_iff]
  constructor
  · rintro ⟨count', hcount, hsome⟩
    by_cases hzero : count' = 0
    · simp [hzero] at hsome
    · rw [if_neg hzero] at hsome
      cases hsome
      exact ⟨hzero, hcount⟩
  · rintro ⟨hzero, hcount⟩
    exact ⟨count, hcount, by rw [if_neg hzero]⟩

/-- A burst is granted where the count becomes other than zero within the budget. -/
theorem runs_awaitBurst_ok_iff {count : Nat} :
    link.awaitBurst.Runs trace (.ok count) ↔ count ≠ 0 ∧ link.Grants count trace := by
  rw [awaitBurst_eq, runs_onTimeout_throw_ok_iff, Poller.runs_await_ok_iff,
    Poller.Meets.congr (fun _ => runs_probeBurst_none_iff) fun _ => runs_probeBurst_some_iff]
  constructor
  · rintro ⟨misses, last, hlength, hmisses, ⟨hzero, hlast⟩, rfl⟩
    exact ⟨hzero, misses, last, hlength, hmisses, hlast, rfl⟩
  · rintro ⟨hzero, misses, last, hlength, hmisses, hlast, rfl⟩
    exact ⟨misses, last, hlength, hmisses, ⟨hzero, hlast⟩, rfl⟩

theorem failsWith_awaitProbe :
    (link.poller.await link.timeouts.d link.probeBurst).FailsWith [.timeout, .io] :=
  failsWith_await _ (failsWith_probeBurst.mono (by simp)) List.mem_cons_self _

/-- A wait for a burst gives the chip up exactly where it starves. -/
theorem runs_awaitBurst_busy_iff :
    link.awaitBurst.Runs trace (.error .deviceBusy) ↔ link.Starves trace := by
  rw [awaitBurst_eq, runs_onTimeout_throw_error_iff failsWith_awaitProbe (by decide),
    Poller.runs_await_timeout_iff failsWith_probeBurst (by decide)]
  exact Poller.Spends.congr fun _ => runs_probeBurst_none_iff

theorem failsWith_awaitBurst : link.awaitBurst.FailsWith [.deviceBusy, .io] := by
  rw [awaitBurst_eq]
  refine (failsWith_awaitProbe.mono (by simp)).onTimeout ?_
  exact (failsWith_note _).bind fun _ => failsWith_throw List.mem_cons_self

theorem failsWith_refill : (link.refill budget).FailsWith [.deviceBusy, .io] := by
  unfold refill
  split
  · exact failsWith_awaitBurst
  · exact failsWith_pure _

theorem runs_refill_ok_iff {count : Nat} :
    (link.refill budget).Runs trace (.ok count) ↔
      ∃ left, count = left + 1 ∧ link.Allows budget trace left := by
  by_cases hbudget : budget = 0
  · rw [refill, if_pos hbudget, runs_awaitBurst_ok_iff]
    constructor
    · rintro ⟨hcount, hgrant⟩
      obtain ⟨left, rfl⟩ := Nat.exists_eq_succ_of_ne_zero hcount
      exact ⟨left, rfl, .inr ⟨hbudget, hgrant⟩⟩
    · rintro ⟨left, rfl, ⟨-, hsome⟩ | ⟨-, hgrant⟩⟩
      · exact absurd (hsome.symm.trans hbudget) (Nat.succ_ne_zero left)
      · exact ⟨Nat.succ_ne_zero left, hgrant⟩
  · rw [refill, if_neg hbudget, runs_pure_iff]
    constructor
    · rintro ⟨rfl, hcount⟩
      cases hcount
      obtain ⟨left, rfl⟩ := Nat.exists_eq_succ_of_ne_zero hbudget
      exact ⟨left, rfl, .inl ⟨rfl, rfl⟩⟩
    · rintro ⟨left, rfl, ⟨rfl, rfl⟩ | ⟨hzero, -⟩⟩
      · exact ⟨rfl, rfl⟩
      · exact absurd hzero hbudget

/-- A transfer is given up only where its budget is spent. -/
theorem runs_refill_busy_iff :
    (link.refill budget).Runs trace (.error .deviceBusy) ↔ budget = 0 ∧ link.Starves trace := by
  by_cases hbudget : budget = 0
  · rw [refill, if_pos hbudget, runs_awaitBurst_busy_iff, and_iff_right hbudget]
  · rw [refill, if_neg hbudget, runs_pure_iff]
    exact iff_of_false (fun h => by cases h.2) fun h => hbudget h.1

/-! ### Paced transfers -/

/-- A transfer in two parts spends in the second what the first has left. -/
theorem paced_append_iff :
    link.Paced budget (moves ++ moves') trace left ↔
      ∃ front back middle, trace = front ++ back ∧ link.Paced budget moves front middle ∧
        link.Paced middle moves' back left := by
  constructor
  · intro h
    induction moves generalizing budget trace with
    | nil => exact ⟨[], trace, budget, rfl, .done budget, h⟩
    | cons event moves ih =>
      cases h with
      | move _ hallows hrest =>
        obtain ⟨front, back, middle, rfl, hfront, hback⟩ := ih hrest
        exact ⟨_, back, middle, by simp, .move event hallows hfront, hback⟩
  · rintro ⟨front, back, middle, rfl, hfront, hback⟩
    induction hfront with
    | done budget => exact hback
    | move event hallows _ ih =>
      rw [List.append_assoc]
      exact .move event hallows (ih hback)

/-- The waits of a transfer read the burst count and let time pass. -/
theorem Grants.isWait {count : Nat} (h : link.Grants count trace) :
    ∀ event ∈ trace, link.IsWait event := by
  obtain ⟨misses, last, -, hmisses, hlast, rfl⟩ := h
  have hcounts : ∀ count probe, link.Counts count probe → ∀ event ∈ probe, link.IsWait event := by
    rintro count _ ⟨low, high, rfl, -⟩
    exact List.forall_mem_cons.mpr
      ⟨.inr (.inl rfl), List.forall_mem_singleton.mpr (.inr (.inr rfl))⟩
  intro event hmem
  rcases List.mem_append.mp hmem with hround | hprobe
  · obtain ⟨miss, hmiss, hmem⟩ := List.mem_flatMap.mp hround
    rcases List.mem_append.mp hmem with hprobe | hstall
    · exact hcounts 0 miss (hmisses miss hmiss) event hprobe
    · rw [List.mem_singleton.mp hstall]
      trivial
  · exact hcounts count last hlast event hprobe

theorem Allows.isWait (h : link.Allows budget trace left) : ∀ event ∈ trace, link.IsWait event := by
  rcases h with ⟨rfl, -⟩ | ⟨-, hgrant⟩
  · simp
  · exact hgrant.isWait

/-- What a transfer receives is what its moves receive. -/
theorem Paced.received_eq (h : link.Paced budget moves trace left) :
    link.received trace = link.received moves := by
  unfold received
  induction h with
  | done budget => rfl
  | @move _ _ _ wait moves trace event hallows _ ih =>
    have hwait : wait.Never link.IsReceive :=
      never_readsFrom hallows.isWait fun _ => IsSource.ne_data
    rw [received_append, received_eq_nil hwait, List.nil_append, received_cons, ih, ← received_cons]

end Fifo

end TpmLink
