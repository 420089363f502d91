import TpmLink.Wait

/-!
# How many rounds a wait makes

Which rounds a wait has time for depends on its quantum and its budget alone, and not on what the
probes yield. So a wait makes as many rounds at most as can be told beforehand. As long as no sum
passes the word that a wait counts in, they are the budget divided by the quantum and rounded up. In
any case they let at least the budget pass, and only a wait whose count never comes to the budget
depends on the patience that one has with it.
-/

namespace TpmLink

namespace Poller

/-! ### Rounds that are told beforehand -/

section
variable {m : Type → Type} [Monad m] [MonadExceptOf Failure m] [Clock m] {α : Type}

/-- Probe at most so many times, with a stall after each probe that yields nothing. -/
def awaitWithin (poller : Poller) (probe : m (Option α)) : Nat → m α
  | 0 => throw .timeout
  | left + 1 => do
    match ← probe with
    | some value => return value
    | none =>
      stall poller.quantum
      poller.awaitWithin probe left

/-- The rounds that there is time for, with so much counted already and so many to follow. -/
def probesFrom (poller : Poller) (timeout : Nat) (waited : UInt64) : Nat → Nat
  | 0 => 0
  | left + 1 =>
    if waited.toNat < timeout then
      poller.probesFrom timeout (waited + .ofNat poller.quantum) left + 1
    else 0

/-- How many probes a wait makes at most. -/
def probes (poller : Poller) (timeout : Nat) : Nat :=
  poller.probesFrom timeout 0 (poller.reach timeout)

theorem awaitFrom_eq (poller : Poller) (timeout : Nat) (probe : m (Option α)) (waited : UInt64)
    (left : Nat) :
    poller.awaitFrom timeout probe waited left =
      poller.awaitWithin probe (poller.probesFrom timeout waited left) := by
  induction left generalizing waited with
  | zero => rfl
  | succ left ih =>
    rw [awaitFrom, probesFrom]
    split
    · simp only [ih]
      rfl
    · rfl

/-- Counting up what is waited is counting down the probes that are left. -/
theorem await_eq (poller : Poller) (timeout : Nat) (probe : m (Option α)) :
    poller.await timeout probe = poller.awaitWithin probe (poller.probes timeout) :=
  awaitFrom_eq poller timeout probe 0 _

end

/-! ### What is counted -/

/-- What a wait has counted after so many rounds. -/
def counted (poller : Poller) (rounds : Nat) : Nat := rounds * poller.quantum % UInt64.size

/-- There is time for another probe after so many rounds: the budget has not been counted so far,
and the wait is still followed. -/
structure GoesOn (poller : Poller) (timeout rounds : Nat) : Prop where
  counted_lt : ∀ earlier ≤ rounds, poller.counted earlier < timeout
  lt_reach : rounds < poller.reach timeout

/-- After so many rounds, and not before, there is no time for another probe. -/
structure GivesUp (poller : Poller) (timeout rounds : Nat) : Prop where
  counted_lt : ∀ earlier < rounds, poller.counted earlier < timeout
  le_reach : rounds ≤ poller.reach timeout
  le_counted : rounds < poller.reach timeout → timeout ≤ poller.counted rounds

variable {poller : Poller} {timeout rounds rounds' patience : Nat}

theorem counted_le (poller : Poller) (rounds : Nat) :
    poller.counted rounds ≤ rounds * poller.quantum :=
  Nat.mod_le _ _

theorem toNat_waited (poller : Poller) (rounds : Nat) :
    (UInt64.ofNat (rounds * poller.quantum)).toNat = poller.counted rounds :=
  UInt64.toNat_ofNat'

theorem waited_succ (poller : Poller) (rounds : Nat) :
    UInt64.ofNat (rounds * poller.quantum) + .ofNat poller.quantum =
      .ofNat ((rounds + 1) * poller.quantum) := by
  rw [Nat.succ_mul, UInt64.ofNat_add]

/-- What the count says about the rounds that follow after some. -/
theorem probesFrom_spec (poller : Poller) (timeout rounds left : Nat) :
    let more := poller.probesFrom timeout (.ofNat (rounds * poller.quantum)) left
    (∀ earlier < more, poller.counted (rounds + earlier) < timeout) ∧ more ≤ left ∧
      (more < left → timeout ≤ poller.counted (rounds + more)) := by
  induction left generalizing rounds with
  | zero =>
    exact ⟨fun _ h => absurd h (Nat.not_lt_zero _), Nat.le_refl 0,
      fun h => absurd h (Nat.lt_irrefl 0)⟩
  | succ left ih =>
    intro more
    obtain ⟨hlt, hle, hend⟩ := ih (rounds + 1)
    simp only [more, probesFrom, toNat_waited, waited_succ]
    split
    next htime =>
      refine ⟨fun earlier hearlier => ?_, Nat.succ_le_succ hle, fun hshort => ?_⟩
      · cases earlier with
        | zero => exact htime
        | succ earlier =>
          rw [← Nat.succ_add_eq_add_succ]
          exact hlt earlier (Nat.lt_of_succ_lt_succ hearlier)
      · rw [← Nat.succ_add_eq_add_succ]
        exact hend (Nat.lt_of_succ_lt_succ hshort)
    next htime =>
      exact ⟨fun _ h => absurd h (Nat.not_lt_zero _), Nat.zero_le _,
        fun _ => Nat.le_of_not_lt htime⟩

theorem givesUp_probes (poller : Poller) (timeout : Nat) :
    poller.GivesUp timeout (poller.probes timeout) := by
  have hspec := probesFrom_spec poller timeout 0 (poller.reach timeout)
  simp only [Nat.zero_mul, Nat.zero_add] at hspec
  exact ⟨hspec.1, hspec.2.1, hspec.2.2⟩

/-- A wait gives up only once. -/
theorem GivesUp.le (h : poller.GivesUp timeout rounds) (h' : poller.GivesUp timeout rounds') :
    rounds ≤ rounds' := by
  refine Nat.le_of_not_lt fun hless => ?_
  have hcounted := h'.le_counted (Nat.lt_of_lt_of_le hless h.le_reach)
  exact Nat.not_lt.mpr hcounted (h.counted_lt rounds' hless)

theorem givesUp_iff : poller.GivesUp timeout rounds ↔ rounds = poller.probes timeout := by
  have hends := givesUp_probes poller timeout
  constructor
  · intro h
    exact Nat.le_antisymm (h.le hends) (hends.le h)
  · rintro rfl
    exact hends

theorem goesOn_iff : poller.GoesOn timeout rounds ↔ rounds < poller.probes timeout := by
  have hends := givesUp_probes poller timeout
  constructor
  · intro h
    refine Nat.lt_of_not_le fun hless => ?_
    have hcounted := hends.le_counted (Nat.lt_of_le_of_lt hless h.lt_reach)
    exact Nat.not_lt.mpr hcounted (h.counted_lt _ hless)
  · intro h
    exact ⟨fun earlier hearlier => hends.counted_lt earlier (Nat.lt_of_le_of_lt hearlier h),
      Nat.lt_of_lt_of_le h hends.le_reach⟩

/-! ### Budgets -/

/-- A number of rounds is enough for a budget where it is not below the number that it needs. -/
theorem needed_le_iff : poller.needed timeout ≤ rounds ↔ timeout ≤ rounds * poller.quantum := by
  have hquantum := poller.quantum_pos
  rw [needed, ← Nat.lt_succ_iff, Nat.div_lt_iff_lt_mul hquantum, Nat.succ_mul]
  omega

/-- The rounds that a budget needs take less than a quantum more than the budget. -/
theorem needed_mul_lt (poller : Poller) (timeout : Nat) :
    poller.needed timeout * poller.quantum < timeout + poller.quantum := by
  have hquantum := poller.quantum_pos
  have hle := Nat.div_mul_le_self (timeout + poller.quantum - 1) poller.quantum
  rw [needed]
  omega

theorem needed_le_reach (poller : Poller) (timeout : Nat) :
    poller.needed timeout ≤ poller.reach timeout := by
  rw [reach]
  exact Nat.le_add_right _ _

theorem size_le_reach (poller : Poller) (timeout : Nat) :
    UInt64.size ≤ poller.reach timeout := by
  rw [reach, Nat.add_left_comm]
  exact Nat.le_add_right _ _

/-- A wait that gives up has let its budget pass, whatever it has counted. -/
theorem GivesUp.le_mul (h : poller.GivesUp timeout rounds) :
    timeout ≤ rounds * poller.quantum := by
  rcases Nat.lt_or_ge rounds (poller.reach timeout) with hshort | hlong
  · exact Nat.le_trans (h.le_counted hshort) (counted_le poller rounds)
  · exact needed_le_iff.mp (Nat.le_trans (needed_le_reach poller timeout) hlong)

/-- No sum passes the word that a wait counts in. -/
def Fits (poller : Poller) (timeout : Nat) : Prop :=
  poller.needed timeout * poller.quantum < UInt64.size

theorem Fits.counted_eq (h : poller.Fits timeout) (hrounds : rounds ≤ poller.needed timeout) :
    poller.counted rounds = rounds * poller.quantum :=
  Nat.mod_eq_of_lt (Nat.lt_of_le_of_lt (Nat.mul_le_mul_right _ hrounds) h)

/-- Where no sum passes the word, a wait makes the rounds that its budget needs. -/
theorem Fits.probes_eq (h : poller.Fits timeout) :
    poller.probes timeout = poller.needed timeout := by
  symm
  rw [← givesUp_iff]
  refine ⟨fun earlier hearlier => ?_, needed_le_reach poller timeout, fun _ => ?_⟩
  · rw [h.counted_eq (Nat.le_of_lt hearlier), ← Nat.not_le, ← needed_le_iff, Nat.not_le]
    exact hearlier
  · rw [h.counted_eq (Nat.le_refl _)]
    exact needed_le_iff.mp (Nat.le_refl _)

theorem Fits.goesOn_iff (h : poller.Fits timeout) :
    poller.GoesOn timeout rounds ↔ rounds * poller.quantum < timeout := by
  rw [Poller.goesOn_iff, h.probes_eq, ← Nat.not_le, needed_le_iff, Nat.not_le]

theorem Fits.givesUp_iff (h : poller.Fits timeout) :
    poller.GivesUp timeout rounds ↔
      timeout ≤ rounds * poller.quantum ∧ rounds * poller.quantum < timeout + poller.quantum := by
  rw [Poller.givesUp_iff, h.probes_eq]
  constructor
  · rintro rfl
    exact ⟨needed_le_iff.mp (Nat.le_refl _), needed_mul_lt poller timeout⟩
  · rintro ⟨henough, hshort⟩
    refine Nat.le_antisymm (Nat.le_of_not_lt fun hmore => ?_) (needed_le_iff.mpr henough)
    have hneeded : timeout ≤ poller.needed timeout * poller.quantum :=
      needed_le_iff.mp (Nat.le_refl _)
    have hrounds : (poller.needed timeout + 1) * poller.quantum ≤ rounds * poller.quantum :=
      Nat.mul_le_mul_right _ hmore
    rw [Nat.succ_mul] at hrounds
    omega

/-! ### Endless waits -/

/-- The count shows no more values than the word has. -/
theorem counted_mod (poller : Poller) (rounds : Nat) :
    poller.counted (rounds % UInt64.size) = poller.counted rounds := by
  rw [counted, counted, Nat.mul_mod, Nat.mod_mod, ← Nat.mul_mod]

/-- A wait that gives up has counted its budget, or it would never do so. -/
theorem GivesUp.counted_or_endless (h : poller.GivesUp timeout rounds) :
    timeout ≤ poller.counted rounds ∨ ∀ later, poller.counted later < timeout := by
  rcases Nat.lt_or_ge rounds (poller.reach timeout) with hshort | hlong
  · exact .inl (h.le_counted hshort)
  · refine .inr fun later => ?_
    have hlater : later % UInt64.size < UInt64.size := Nat.mod_lt _ (by decide)
    have hrounds := Nat.le_trans (size_le_reach poller timeout) hlong
    rw [← counted_mod]
    exact h.counted_lt _ (Nat.lt_of_lt_of_le hlater hrounds)

/-- With more patience there is still time wherever there was. -/
theorem GoesOn.of_patience (hpatience : poller.patience ≤ patience)
    (h : poller.GoesOn timeout rounds) : GoesOn { poller with patience } timeout rounds where
  counted_lt := h.counted_lt
  lt_reach := Nat.lt_of_lt_of_le h.lt_reach
    (Nat.add_le_add_left (Nat.add_le_add_left hpatience _) _)

/-- The patience with a wait makes a difference only where the wait is endless. -/
theorem probes_of_counted (hcounted : timeout ≤ poller.counted rounds) (patience : Nat) :
    ({ poller with patience } : Poller).probes timeout = poller.probes timeout := by
  have hends := givesUp_probes poller timeout
  have hmod : rounds % UInt64.size < UInt64.size := Nat.mod_lt _ (by decide)
  have hwithin : poller.probes timeout ≤ rounds % UInt64.size := by
    refine Nat.le_of_not_lt fun hless => ?_
    have hearlier := hends.counted_lt _ hless
    rw [counted_mod] at hearlier
    exact Nat.not_lt.mpr hcounted hearlier
  have hreach := size_le_reach { poller with patience } timeout
  symm
  rw [← givesUp_iff]
  refine ⟨hends.counted_lt, Nat.le_trans hwithin (Nat.le_of_lt (Nat.lt_of_lt_of_le hmod hreach)),
    fun _ => ?_⟩
  exact hends.counted_or_endless.resolve_right fun hendless =>
    Nat.not_lt.mpr hcounted (hendless rounds)

/-- A quantum of half the word brings the count back to zero every second round, so there is always
time for another probe. -/
example : (ofQuantum (2 ^ 63)).GoesOn (2 ^ 64 - 1) 3 := ⟨by decide, by decide⟩

end Poller

end TpmLink
