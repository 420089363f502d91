import Mathlib.Algebra.Order.Floor.Div
import Mathlib.Data.Nat.Bitwise
import Mathlib.Data.Stream.Init
import TpmLink.Proofs.Bus.Lapses
import TpmLink.Proofs.Wait.Record

/-!
# Which probes a wait makes

A wait goes on as long as it has waited less than its budget, and each probe that yields nothing
takes one quantum. So the number of probes is limited by the budget divided by the quantum and
rounded up, and whatever probes yield, the calls of a wait and its result can be listed from the
first one that yields something. All this supposes that no sum passes the word that a wait counts
in.
-/

namespace TpmLink

/-- What a wait calls. -/
inductive WaitCall where
  | probe
  | stall (micros : Nat)
  deriving DecidableEq, Repr

namespace WaitCall

/-- How long a call lets time pass. -/
def micros : WaitCall → Nat
  | probe => 0
  | stall micros => micros

/-- How long calls let time pass in all. -/
def stalled (calls : List WaitCall) : Nat := (calls.map micros).sum

end WaitCall

namespace Recorded

variable {σ κ : Type}

instance : Clock (Recorded σ WaitCall) :=
  ⟨fun micros => call (.stall micros) fun world => (.ok (), world)⟩

/-- Notices are not calls. -/
instance : Journal (Recorded σ κ) := ⟨fun _ => pure ()⟩

end Recorded

namespace Poller

variable {α β : Type}

/-- A probe that yields what is next in an endless row. -/
def nextOutcome : Recorded (Stream' (Except Failure β)) WaitCall β :=
  Recorded.call .probe fun row => (row.head, row.tail)

/-- Probes that yield nothing, each followed by a stall. -/
def emptyRounds (quantum count : Nat) : List WaitCall :=
  (List.replicate count [.probe, .stall quantum]).flatten

/-- What a probe that yields something makes of the wait. -/
inductive Settles : Except Failure (Option α) → Except Failure α → Prop
  | value (value : α) : Settles (.ok (some value)) (.ok value)
  | failure (failure : Failure) : Settles (.error failure) (.error failure)

/-- The result and the calls of a wait of at most so many probes, by what they yield. -/
inductive Waited (quantum limit : Nat) (outcomes : Stream' (Except Failure (Option α))) :
    Except Failure α → List WaitCall → Prop
  /-- Within the limit a probe yields something, and nothing is called behind it. -/
  | settled {misses : Nat} {result : Except Failure α} (hwithin : misses < limit)
      (hmisses : ∀ index < misses, outcomes.get index = .ok none)
      (hsettles : Settles (outcomes.get misses) result) :
      Waited quantum limit outcomes result (emptyRounds quantum misses ++ [.probe])
  /-- No probe within the limit yields anything. -/
  | spent (hmisses : ∀ index < limit, outcomes.get index = .ok none) :
      Waited quantum limit outcomes (.error .timeout) (emptyRounds quantum limit)

theorem needed_eq (poller : Poller) (timeout : Nat) :
    poller.needed timeout = timeout ⌈/⌉ poller.quantum :=
  (Nat.ceilDiv_eq_add_pred_div timeout poller.quantum).symm

theorem stalled_emptyRounds (quantum count : Nat) :
    WaitCall.stalled (emptyRounds quantum count) = count * quantum := by
  induction count with
  | zero => simp [emptyRounds, WaitCall.stalled]
  | succ count ih =>
    have hrounds : emptyRounds quantum (count + 1) =
        .probe :: .stall quantum :: emptyRounds quantum count := rfl
    simp only [WaitCall.stalled] at ih
    simp only [hrounds, WaitCall.stalled, List.map_cons, List.sum_cons, WaitCall.micros, ih]
    rw [Nat.succ_mul]
    omega

/-! ### Probe by probe -/

section
variable {m : Type → Type} [Monad m] [MonadExceptOf Failure m] [Clock m] {poller : Poller}
  {timeout : Nat}

/-- Without time there is no probe. -/
theorem await_zero (probe : m (Option α)) : poller.await 0 probe = throw .timeout := by
  rw [await]
  cases poller.reach 0 with
  | zero => rfl
  | succ left => rw [awaitFrom, if_neg (Nat.not_lt_zero _)]

/-- A wait that counts without an end how long it has waited, and goes on while that is less than
its budget. -/
def awaitSince (poller : Poller) (timeout : Nat) (probe : m (Option α)) (waited : Nat) : m α :=
  if waited < timeout then do
    match ← probe with
    | some value => return value
    | none =>
      stall poller.quantum
      awaitSince poller timeout probe (waited + poller.quantum)
  else throw .timeout
termination_by timeout - waited
decreasing_by
  have hquantum := poller.quantum_pos
  omega

/-- After some of the rounds that a budget needs, the wait goes on for those that are left. -/
theorem awaitSince_eq (probe : m (Option α)) {rounds left : Nat}
    (h : rounds + left = poller.needed timeout) :
    poller.awaitSince timeout probe (rounds * poller.quantum) = poller.awaitWithin probe left := by
  induction left generalizing rounds with
  | zero =>
    have hspent : timeout ≤ rounds * poller.quantum := needed_le_iff.mp (Nat.le_of_eq h.symm)
    rw [awaitSince, if_neg (Nat.not_lt.mpr hspent)]
    rfl
  | succ left ih =>
    have hrest : rounds + 1 + left = poller.needed timeout := by omega
    have htime : ¬ timeout ≤ rounds * poller.quantum := by
      rw [← needed_le_iff]
      omega
    rw [awaitSince, if_pos (Nat.lt_of_not_le htime), ← Nat.succ_mul, ih hrest]
    rfl

/-- A count in a word is as good as one without an end where no sum passes the word. -/
theorem Fits.await_eq (h : poller.Fits timeout) (probe : m (Option α)) :
    poller.await timeout probe = poller.awaitSince timeout probe 0 := by
  have hsince := awaitSince_eq probe (Nat.zero_add (poller.needed timeout))
  rw [Nat.zero_mul] at hsince
  rw [hsince, Poller.await_eq, h.probes_eq]

end

variable {quantum limit timeout : Nat} {outcomes : Stream' (Except Failure (Option α))}

theorem Waited.first {result : Except Failure α} (h : Settles outcomes.head result) :
    Waited quantum (limit + 1) outcomes result [.probe] :=
  .settled (Nat.succ_pos limit) (fun _ hindex => absurd hindex (Nat.not_lt_zero _)) h

/-- A probe that yields nothing, and the wait that goes on behind it. -/
theorem Waited.again {result : Except Failure α} {calls : List WaitCall}
    (hmiss : outcomes.head = .ok none) (h : Waited quantum limit outcomes.tail result calls) :
    Waited quantum (limit + 1) outcomes result (.probe :: .stall quantum :: calls) := by
  have hmore {count : Nat} (hrest : ∀ index < count, outcomes.tail.get index = .ok none) :
      ∀ index < count + 1, outcomes.get index = .ok none := by
    intro index hindex
    cases index with
    | zero => exact hmiss
    | succ index => exact hrest index (Nat.lt_of_succ_lt_succ hindex)
  cases h with
  | settled hwithin hmisses hsettles =>
    exact .settled (Nat.succ_lt_succ hwithin) (hmore hmisses) hsettles
  | spent hmisses => exact .spent (hmore hmisses)

/-- A wait whose probe takes what is next in a row and judges it. -/
theorem waited_awaitWithin (poller : Poller) (judge : β → Except Failure (Option α))
    {probe : Recorded (Stream' β) WaitCall (Option α)}
    (hprobe : ∀ row, probe row = (judge row.head, row.tail, [.probe])) (left : Nat)
    (row : Stream' β) :
    Waited poller.quantum left (row.map judge) (poller.awaitWithin probe left row).1
      (poller.awaitWithin probe left row).2.2 := by
  induction left generalizing row with
  | zero => exact .spent fun _ hindex => absurd hindex (Nat.not_lt_zero _)
  | succ left ih =>
    have hfirst := hprobe row
    rw [awaitWithin]
    cases houtcome : judge row.head with
    | error failure =>
      rw [houtcome] at hfirst
      rw [Recorded.run_bind_of_error _ hfirst]
      refine .first ?_
      rw [Stream'.head_map, houtcome]
      exact .failure failure
    | ok found =>
      rw [houtcome] at hfirst
      rw [Recorded.run_bind_of_ok _ hfirst]
      cases found with
      | some value =>
        refine .first ?_
        rw [Stream'.head_map, houtcome]
        exact .value value
      | none =>
        have hrest := ih row.tail
        have hstall : (stall poller.quantum : Recorded (Stream' β) WaitCall Unit) row.tail =
          (.ok (), row.tail, [.stall poller.quantum]) := rfl
        simp only [Recorded.run_bind_of_ok _ hstall]
        exact .again (by rw [Stream'.head_map, houtcome]) (by rwa [Stream'.tail_map])

theorem waited_await (poller : Poller) (judge : β → Except Failure (Option α))
    {probe : Recorded (Stream' β) WaitCall (Option α)}
    (hprobe : ∀ row, probe row = (judge row.head, row.tail, [.probe])) (timeout : Nat)
    (row : Stream' β) :
    Waited poller.quantum (poller.probes timeout) (row.map judge)
      (poller.await timeout probe row).1 (poller.await timeout probe row).2.2 := by
  rw [await_eq]
  exact waited_awaitWithin poller judge hprobe _ row

/-! ### Bits -/

/-- Every bit of `set` reads one, and every bit of `clear` reads zero. -/
def ReadsAs (set clear value : UInt32) : Prop :=
  ∀ bit < 32, (set.toNat.testBit bit → value.toNat.testBit bit) ∧
    (clear.toNat.testBit bit → ¬ value.toNat.testBit bit)

instance (set clear value : UInt32) : Decidable (ReadsAs set clear value) :=
  inferInstanceAs (Decidable (∀ bit < 32, _ ∧ _))

/-- What a read says to a wait for bits. -/
def judgeBits (set clear : UInt32) (read : Except Failure UInt32) :
    Except Failure (Option Unit) :=
  read.map fun value => if ReadsAs set clear value then some () else none

theorem and_eq_iff_testBit (value mask kept : UInt32) :
    value &&& mask = kept ↔
      ∀ bit < 32, (value.toNat.testBit bit && mask.toNat.testBit bit) = kept.toNat.testBit bit := by
  rw [← UInt32.toNat_inj, UInt32.toNat_and]
  constructor
  · intro h bit _
    rw [← h, Nat.testBit_and]
  · intro h
    apply Nat.eq_of_testBit_eq
    intro bit
    rw [Nat.testBit_and]
    by_cases hbit : bit < 32
    · exact h bit hbit
    · have hpow : 2 ^ 32 ≤ 2 ^ bit := Nat.pow_le_pow_right (by decide) (Nat.not_lt.mp hbit)
      have hvalue := Nat.testBit_lt_two_pow (Nat.lt_of_lt_of_le value.toNat_lt hpow)
      have hkept := Nat.testBit_lt_two_pow (Nat.lt_of_lt_of_le kept.toNat_lt hpow)
      rw [hvalue, hkept, Bool.false_and]

theorem holds_iff_readsAs (set clear value : UInt32) :
    Holds set clear value ↔ ReadsAs set clear value := by
  rw [Holds, ReadsAs, and_eq_iff_testBit, and_eq_iff_testBit]
  constructor
  · rintro ⟨hset, hclear⟩ bit hbit
    have hone := hset bit hbit
    have hzero := hclear bit hbit
    grind
  · intro h
    constructor
    · intro bit hbit
      have hone := (h bit hbit).1
      grind
    · intro bit hbit
      have hzero := (h bit hbit).2
      grind

/-- A wait for bits is a wait for a read that shows them. -/
theorem waited_waitBits (poller : Poller) (set clear : UInt32) (timeout : Nat)
    (reads : Stream' (Except Failure UInt32)) :
    Waited poller.quantum (poller.probes timeout) (reads.map (judgeBits set clear))
      (poller.waitBits nextOutcome set clear timeout reads).1
      (poller.waitBits nextOutcome set clear timeout reads).2.2 := by
  refine waited_await poller (judgeBits set clear) (fun row => ?_) timeout reads
  have hread : nextOutcome row = (row.head, row.tail, [.probe]) := rfl
  cases hhead : row.head with
  | error failure =>
    rw [hhead] at hread
    exact Recorded.run_bind_of_error _ hread
  | ok value =>
    rw [hhead] at hread
    have hnote : (note (.polled value set clear) : Recorded (Stream' (Except Failure UInt32))
        WaitCall Unit) row.tail = (.ok (), row.tail, []) := rfl
    have hbits : matching value set clear = true ↔ ReadsAs set clear value :=
      matching_iff.trans (holds_iff_readsAs set clear value)
    rw [Recorded.run_bind_of_ok _ hread, Recorded.run_bind_of_ok _ hnote, Recorded.run_pure]
    simp only [hbits, judgeBits, Except.map, List.append_nil]

/-- What reads one and what reads zero are different bits. -/
theorem ReadsAs.and_eq_zero {set clear value : UInt32} (h : ReadsAs set clear value) :
    set &&& clear = 0 := by
  obtain ⟨hset, hclear⟩ := (holds_iff_readsAs set clear value).mpr h
  calc
    set &&& clear = value &&& set &&& clear := by rw [hset]
    _ = set &&& (value &&& clear) := by rw [UInt32.and_comm value set, UInt32.and_assoc]
    _ = 0 := by rw [hclear, UInt32.and_zero]

/-- A wait for bits that succeeds has seen them. -/
theorem Waited.exists_readsAs {set clear : UInt32} {reads : Stream' (Except Failure UInt32)}
    {calls : List WaitCall}
    (h : Waited quantum limit (reads.map (judgeBits set clear)) (.ok ()) calls) :
    ∃ value, ReadsAs set clear value := by
  cases h with
  | @settled misses _ _ _ hsettles =>
    rw [Stream'.get_map] at hsettles
    cases hread : reads.get misses with
    | error failure =>
      rw [hread] at hsettles
      cases hsettles
    | ok value =>
      rw [hread] at hsettles
      refine ⟨value, ?_⟩
      by_contra hbits
      simp only [judgeBits, Except.map, if_neg hbits] at hsettles
      cases hsettles

/-- Where no sum passes the word, the probes are limited by what the budget needs. -/
theorem Fits.waited_await {poller : Poller} (h : poller.Fits timeout)
    (outcomes : Stream' (Except Failure (Option α))) :
    Waited poller.quantum (timeout ⌈/⌉ poller.quantum) outcomes
      (poller.await timeout nextOutcome outcomes).1
      (poller.await timeout nextOutcome outcomes).2.2 := by
  have hnext : ∀ row : Stream' (Except Failure (Option α)),
      nextOutcome row = (id row.head, row.tail, [.probe]) := fun _ => rfl
  have hwait := Poller.waited_await poller id hnext timeout outcomes
  rwa [Stream'.map_id, h.probes_eq, needed_eq] at hwait

theorem Fits.waited_waitBits {poller : Poller} (h : poller.Fits timeout) (set clear : UInt32)
    (reads : Stream' (Except Failure UInt32)) :
    Waited poller.quantum (timeout ⌈/⌉ poller.quantum) (reads.map (judgeBits set clear))
      (poller.waitBits nextOutcome set clear timeout reads).1
      (poller.waitBits nextOutcome set clear timeout reads).2.2 := by
  have hbits := Poller.waited_waitBits poller set clear timeout reads
  rwa [h.probes_eq, needed_eq] at hbits

/-- What is never seen is waited for in vain. -/
theorem waitBits_ne_ok (poller : Poller) {set clear : UInt32} (hoverlap : set &&& clear ≠ 0)
    (timeout : Nat) (reads : Stream' (Except Failure UInt32)) :
    (poller.waitBits nextOutcome set clear timeout reads).1 ≠ .ok () := by
  intro hsuccess
  have hbits := waited_waitBits poller set clear timeout reads
  rw [hsuccess] at hbits
  obtain ⟨value, hvalue⟩ := hbits.exists_readsAs
  exact hoverlap hvalue.and_eq_zero

/-- A wait counts what it has waited against its budget. It comes to what the first probe that
yields something comes to, and calls nothing behind it. Its budget, divided by the quantum and
rounded up, limits its probes; where none of them yields anything it has let at least the budget
pass and less than a quantum more. A wait for bits is such a wait for a read that shows them. This
is so where no sum passes the word that the wait counts in. In any case a wait without a budget does
nothing, and the same bit is never seen as one and as zero. -/
theorem await_isExact (quantum patience timeout : Nat)
    (outcomes : Stream' (Except Failure (Option α))) (reads : Stream' (Except Failure UInt32))
    (set clear : UInt32) :
    let limit := timeout ⌈/⌉ max 1 quantum
    let poller := ofQuantum quantum patience
    let wait := poller.await timeout nextOutcome outcomes
    let waitBits := poller.waitBits nextOutcome set clear timeout reads
    (limit * max 1 quantum < UInt64.size →
      wait = poller.awaitSince timeout nextOutcome 0 outcomes ∧
      Waited (max 1 quantum) limit outcomes wait.1 wait.2.2 ∧
      Waited (max 1 quantum) limit (reads.map (judgeBits set clear)) waitBits.1 waitBits.2.2) ∧
      timeout ≤ WaitCall.stalled (emptyRounds (max 1 quantum) limit) ∧
      WaitCall.stalled (emptyRounds (max 1 quantum) limit) < timeout + max 1 quantum ∧
      poller.await 0 nextOutcome outcomes = (.error .timeout, outcomes, []) ∧
      (set &&& clear ≠ 0 → waitBits.1 ≠ .ok ()) := by
  intro limit poller wait waitBits
  have hlimit : poller.needed timeout = limit := needed_eq _ _
  have hlong : timeout ≤ limit * max 1 quantum := by
    rw [← hlimit]
    exact needed_le_iff.mp (Nat.le_refl _)
  have hshort : limit * max 1 quantum < timeout + max 1 quantum := by
    rw [← hlimit]
    exact needed_mul_lt poller timeout
  rw [stalled_emptyRounds]
  refine ⟨fun hword => ?_, hlong, hshort, ?_, fun h => waitBits_ne_ok poller h timeout reads⟩
  · have hfits : poller.Fits timeout := by
      rw [Fits, hlimit]
      exact hword
    exact ⟨congrFun (hfits.await_eq nextOutcome) outcomes, hfits.waited_await outcomes,
      hfits.waited_waitBits set clear reads⟩
  · exact congrFun (await_zero nextOutcome) outcomes

/-- A register whose low bits are both set is read four times, and never shows the second one as
zero. -/
theorem await_isExact_sameBit :
    let limit := 100 ⌈/⌉ max 1 30
    let bits := (ofQuantum 30 0).waitBits nextOutcome 3 2 100 (Stream'.const (.ok 3))
    limit * max 1 30 < UInt64.size ∧ (3 : UInt32) &&& 2 ≠ 0 ∧
      Waited 30 4 ((Stream'.const (.ok 3)).map (judgeBits 3 2)) bits.1 bits.2.2 ∧
      bits.1 ≠ .ok () := by
  have hword : 100 ⌈/⌉ max 1 30 * max 1 30 < UInt64.size := by decide
  have hoverlap : (3 : UInt32) &&& 2 ≠ 0 := by decide
  obtain ⟨hexact, -, -, -, hnever⟩ :=
    await_isExact 30 0 100 (Stream'.const (.ok (some ()))) (Stream'.const (.ok 3)) 3 2
  exact ⟨hword, hoverlap, (hexact hword).2.2, hnever hoverlap⟩

end Poller

end TpmLink
