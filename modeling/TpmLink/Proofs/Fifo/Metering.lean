import TpmLink.Proofs.Fifo.Delivery
import TpmLink.Proofs.Fifo.Receiving

/-!
# Transfers by the burst count

A transfer counts down two numbers: the bytes that are still wanted and the budget. A move takes one
from both, and a burst count that is not zero is the next budget. The count is read only where the
budget is spent and bytes are wanted, so behind each count as many bytes are moved as it announces
and as are wanted, unless a move fails.
-/

namespace TpmLink

namespace Fifo

open Script Trace

variable (link : Fifo)

/-- A byte goes through the data register. -/
def IsMove (event : Event) : Prop := link.IsSend event ∨ link.IsReceive event

instance : DecidablePred link.IsMove :=
  fun event => inferInstanceAs (Decidable (link.IsSend event ∨ link.IsReceive event))

/-- The low byte of the burst count is read. -/
def IsCount : Event → Prop :=
  Event.ReadsFrom fun addr => addr = FifoRegister.burstCount.addr link.base

instance : DecidablePred link.IsCount :=
  inferInstanceAs
    (DecidablePred (Event.ReadsFrom fun addr => addr = FifoRegister.burstCount.addr link.base))

/-- The moves before the burst count is read again. -/
def burst (trace : Trace) : Trace :=
  (trace.takeWhile fun event => ¬ link.IsCount event).filter link.IsMove

/-- There are as many as that, or fewer of which one failed. -/
def Fills (count : Nat) (moves : Trace) : Prop :=
  moves.length ≤ count ∧ (moves.length = count ∨ ∃ move ∈ moves, move.Failed)

/-- The last budget is that of a count in this trace, and it is not spent. -/
def Granted (before : Trace) : Prop :=
  ∃ (front reading moves : Trace) (count : Nat), before = front ++ (reading ++ moves) ∧
    link.Counts count reading ∧ (∀ move ∈ moves, link.IsMove move) ∧ moves.length < count

/-- How the burst count is read while so many bytes are wanted. -/
structure Recount (wanted : Nat) (event : Event) (after : Trace) : Prop where
  wants : 0 < wanted
  /-- The high byte is read behind the low one. -/
  paired : ∀ low, event = .read (FifoRegister.burstCount.addr link.base) .byte (.ok low) →
    ∃ answer rest, after =
      .read (FifoRegister.burstCount.addr link.base + 1) .byte answer :: rest
  /-- What is announced is moved, as far as it is wanted. -/
  moved : ∀ count reading rest, event :: after = reading ++ rest → link.Counts count reading →
    count ≠ 0 → Fills (min count wanted) (link.burst rest)
  /-- Where the moves lead to the next count, they are as many as announced. -/
  spent : ∀ count reading moves again rest, event :: after = reading ++ (moves ++ again :: rest) →
    link.Counts count reading → (∀ move ∈ moves, link.IsMove move) → link.IsCount again →
    moves.length = count

/-- If anything happens, the count is read first. -/
def CountFirst (trace : Trace) : Prop :=
  trace = [] ∨ ∃ low rest, trace = low :: rest ∧ link.IsCount low

/-- A wait for a burst that comes to no count at its end. -/
inductive Silent (link : Fifo) : Trace → Prop
  | out : Silent link []
  | low (fault : BusFault) :
      Silent link [.read (FifoRegister.burstCount.addr link.base) .byte (.error fault)]
  | high (raw : UInt64) (fault : BusFault) :
      Silent link [.read (FifoRegister.burstCount.addr link.base) .byte (.ok raw),
        .read (FifoRegister.burstCount.addr link.base + 1) .byte (.error fault)]

/-- A transfer with so many bytes wanted and such a budget. -/
inductive Metered (link : Fifo) : Nat → Nat → Trace → Prop
  /-- What is left of the budget is not used. -/
  | done (budget : Nat) : Metered link 0 budget []
  | move {wanted budget : Nat} {trace : Trace} {event : Event} (moves : link.IsMove event)
      (rest : Metered link wanted budget trace) :
      Metered link (wanted + 1) (budget + 1) (event :: trace)
  | fault {wanted budget : Nat} {event : Event} (moves : link.IsMove event)
      (failed : event.Failed) : Metered link (wanted + 1) (budget + 1) [event]
  | grant {wanted count : Nat} {reading trace : Trace} (counts : link.Counts (count + 1) reading)
      (rest : Metered link (wanted + 1) (count + 1) trace) :
      Metered link (wanted + 1) 0 (reading ++ trace)
  | wait {wanted micros : Nat} {reading trace : Trace} (counts : link.Counts 0 reading)
      (rest : Metered link (wanted + 1) 0 trace) :
      Metered link (wanted + 1) 0 (reading ++ .stall micros :: trace)
  | stop {wanted : Nat} {trace : Trace} (silent : link.Silent trace) :
      Metered link (wanted + 1) 0 trace

variable {link} {wanted budget count : Nat} {trace reading front back moves : Trace} {event : Event}

theorem IsCount.not_isMove (h : link.IsCount event) : ¬ link.IsMove event := by
  rintro (hsend | hreceive)
  · cases event with
    | write => exact h
    | _ => exact hsend
  · cases event with
    | read => exact IsSource.ne_data (.inr (.inl h)) hreceive
    | _ => exact hreceive

/-- The high byte of the burst count is not in the data register. -/
theorem not_isMove_high (answer : Except BusFault UInt64) :
    ¬ link.IsMove (.read (FifoRegister.burstCount.addr link.base + 1) .byte answer) := by
  rintro (hsend | hreceive)
  · exact hsend
  · exact IsSource.ne_data (.inr (.inr rfl)) hreceive

theorem not_isMove_stall (micros : Nat) : ¬ link.IsMove (.stall micros) := by
  rintro (hmove | hmove) <;> exact hmove

/-! ### Bursts -/

@[simp] theorem burst_nil : link.burst [] = [] := rfl

theorem burst_cons_of_isMove (h : link.IsMove event) :
    link.burst (event :: trace) = event :: link.burst trace := by
  have hcount : ¬ link.IsCount event := fun hcount => hcount.not_isMove h
  rw [burst, List.takeWhile_cons_of_pos (by simpa using hcount),
    List.filter_cons_of_pos (by simpa using h)]
  rfl

theorem burst_cons_of_isCount (h : link.IsCount event) : link.burst (event :: trace) = [] := by
  rw [burst, List.takeWhile_cons_of_neg (by simpa using h), List.filter_nil]

/-- What makes no move and reads no count does not matter. -/
theorem burst_append_of_never (hmove : front.Never link.IsMove)
    (hcount : front.Never link.IsCount) : link.burst (front ++ back) = link.burst back := by
  have hwhole : ∀ event ∈ front, decide (¬ link.IsCount event) = true :=
    fun event hmem => decide_eq_true (hcount event hmem)
  have hnone : front.filter link.IsMove = [] :=
    List.filter_eq_nil_iff.mpr fun event hmem => by simpa using hmove event hmem
  rw [burst, List.takeWhile_append_of_pos hwhole, List.filter_append, hnone, List.nil_append, burst]

/-- What begins with a burst of none ends the one before. -/
theorem burst_append_of_nil (h : link.burst back = []) :
    link.burst (front ++ back) = link.burst front := by
  rw [burst, List.takeWhile_append]
  split
  next hwhole =>
    have hfront : front.takeWhile (fun event => decide (¬ link.IsCount event)) = front :=
      (List.takeWhile_prefix _).eq_of_length hwhole
    have hback : (back.takeWhile fun event => decide (¬ link.IsCount event)).filter link.IsMove =
        [] := h
    rw [List.filter_append, hback, List.append_nil, burst, hfront]
  next => rfl

theorem Fills.cons (h : Fills count moves) : Fills (count + 1) (event :: moves) := by
  refine ⟨Nat.succ_le_succ h.1, ?_⟩
  rcases h.2 with hlength | ⟨move, hmem, hfailed⟩
  · exact .inl (congrArg Nat.succ hlength)
  · exact .inr ⟨move, List.mem_cons_of_mem _ hmem, hfailed⟩

theorem Granted.append_left (h : link.Granted back) : link.Granted (front ++ back) := by
  obtain ⟨first, reading, moves, count, rfl, hgranted⟩ := h
  exact ⟨front ++ first, reading, moves, count, by simp, hgranted⟩

/-! ### Readings of the count -/

/-- A reading is the low byte and then the high one. -/
theorem Counts.exists_pair (h : link.Counts count reading) :
    ∃ low high, reading = [low, high] ∧ link.IsCount low ∧ ¬ link.IsCount high ∧
      ¬ link.IsMove high := by
  obtain ⟨low, high, rfl, -⟩ := h
  have hcount : ¬ link.IsCount
      (.read (FifoRegister.burstCount.addr link.base + 1) .byte (.ok high)) := Nat.succ_ne_self _
  exact ⟨_, _, rfl, rfl, hcount, not_isMove_high _⟩

theorem Counts.never_isMove (h : link.Counts count reading) : reading.Never link.IsMove := by
  obtain ⟨low, high, rfl, hlow, -, hhigh⟩ := h.exists_pair
  exact never_cons.mpr ⟨hlow.not_isMove, never_cons.mpr ⟨hhigh, never_nil⟩⟩

theorem Counts.countFirst (h : link.Counts count reading) : link.CountFirst (reading ++ trace) := by
  obtain ⟨low, high, rfl, hlow, -⟩ := h.exists_pair
  exact .inr ⟨low, high :: trace, rfl, hlow⟩

theorem Silent.never_isMove (h : link.Silent trace) : trace.Never link.IsMove := by
  have hlow : ∀ answer, ¬ link.IsMove
      (.read (FifoRegister.burstCount.addr link.base) .byte answer) :=
    fun answer => IsCount.not_isMove rfl
  cases h with
  | out => exact never_nil
  | low fault => exact never_cons.mpr ⟨hlow _, never_nil⟩
  | high raw fault => exact never_cons.mpr ⟨hlow _, never_cons.mpr ⟨not_isMove_high _, never_nil⟩⟩

theorem Silent.countFirst (h : link.Silent trace) : link.CountFirst trace := by
  cases h with
  | out => exact .inl rfl
  | low fault => exact .inr ⟨_, _, rfl, rfl⟩
  | high raw fault => exact .inr ⟨_, _, rfl, rfl⟩

theorem CountFirst.burst_eq_nil (h : link.CountFirst trace) : link.burst trace = [] := by
  rcases h with rfl | ⟨low, rest, rfl, hlow⟩
  · exact burst_nil
  · exact burst_cons_of_isCount hlow

theorem CountFirst.fills (h : link.CountFirst trace) :
    Fills (min 0 wanted) (link.burst trace) := by
  rw [h.burst_eq_nil, Nat.zero_min]
  exact ⟨Nat.le_refl 0, .inl rfl⟩

/-- Behind moves the next count can only come where a move was first, unless there are none. -/
theorem eq_nil_of_first {again : Event} {rest : Trace}
    (hmoves : ∀ move ∈ moves, link.IsMove move) (hevent : ¬ link.IsMove event)
    (heq : event :: trace = moves ++ again :: rest) : moves = [] := by
  cases moves with
  | nil => rfl
  | cons move moves =>
    obtain ⟨rfl, -⟩ := List.cons.inj heq
    exact absurd (hmoves _ List.mem_cons_self) hevent

theorem CountFirst.spent {again : Event} {rest : Trace} (h : link.CountFirst trace)
    (heq : trace = moves ++ again :: rest) (hmoves : ∀ move ∈ moves, link.IsMove move) :
    moves.length = 0 := by
  rcases h with rfl | ⟨low, later, rfl, hlow⟩
  · simp at heq
  · rw [eq_nil_of_first hmoves hlow.not_isMove heq, List.length_nil]

/-- A trace begins with one reading at most. -/
theorem Counts.unique {reading' : Trace} {count' : Nat} (h : link.Counts count reading)
    (h' : link.Counts count' reading') (heq : reading ++ front = reading' ++ back) :
    count = count' ∧ front = back := by
  obtain ⟨low, high, rfl, rfl⟩ := h
  obtain ⟨low', high', rfl, rfl⟩ := h'
  cases heq
  exact ⟨rfl, rfl⟩

/-- A reading is settled by what comes behind it. -/
theorem Counts.atEach {cut : Trace → Event → Trace → Prop} (h : link.Counts count reading)
    (hreading : ∀ low high, reading = [low, high] → cut [] low (high :: trace))
    (htrace : trace.AtEach link.IsCount fun before => cut (reading ++ before)) :
    AtEach link.IsCount cut (reading ++ trace) := by
  obtain ⟨low, high, rfl, -, hhigh, -⟩ := h.exists_pair
  exact atEach_cons (fun _ => hreading low high rfl)
    (atEach_cons (fun hcount => absurd hcount hhigh) htrace)

/-- A whole reading, with what is known of its rest. -/
theorem Counts.recount (h : link.Counts count reading) (hwanted : 0 < wanted)
    (hmoved : count ≠ 0 → Fills (min count wanted) (link.burst trace))
    (hspent : ∀ moves again rest, trace = moves ++ again :: rest →
      (∀ move ∈ moves, link.IsMove move) → link.IsCount again → moves.length = count)
    (low high : Event) (hreading : reading = [low, high]) :
    link.Recount wanted low (high :: trace) where
  wants := hwanted
  paired _ _ := by
    obtain ⟨_, raw, hpair, -⟩ := h
    rw [hpair] at hreading
    cases hreading
    exact ⟨_, _, rfl⟩
  moved count' reading' rest heq hcounts hcount := by
    have hwhole : reading ++ trace = reading' ++ rest := by rw [hreading, ← heq]; rfl
    obtain ⟨rfl, rfl⟩ := h.unique hcounts hwhole
    exact hmoved hcount
  spent count' reading' moves again rest heq hcounts hmoves hagain := by
    have hwhole : reading ++ trace = reading' ++ (moves ++ again :: rest) := by
      rw [hreading, ← heq]; rfl
    obtain ⟨rfl, hrest⟩ := h.unique hcounts hwhole
    exact hspent moves again rest hrest hmoves hagain

/-- A wait that stops at a fault has no whole reading at its end. -/
theorem Silent.recounts (h : link.Silent trace) :
    trace.AtEach link.IsCount fun before event after =>
      link.Recount (wanted + 1 - before.countP (link.IsMove ·)) event after := by
  cases h with
  | out => exact atEach_of_never never_nil
  | low fault =>
    refine atEach_cons (fun _ => ?_) (atEach_of_never never_nil)
    refine ⟨Nat.succ_pos wanted, fun low heq => (by cases heq), ?_, ?_⟩
    · rintro count reading rest heq ⟨low, high, rfl, -⟩
      cases heq
    · rintro count reading moves again rest heq ⟨low, high, rfl, -⟩
      cases heq
  | high raw fault =>
    have hhigh : Never link.IsCount
        [.read (FifoRegister.burstCount.addr link.base + 1) .byte (.error fault)] :=
      never_cons.mpr ⟨Nat.succ_ne_self _, never_nil⟩
    refine atEach_cons (fun _ => ?_) (atEach_of_never hhigh)
    refine ⟨Nat.succ_pos wanted, fun low heq => ⟨_, _, rfl⟩, ?_, ?_⟩
    · rintro count reading rest heq ⟨low, high, rfl, -⟩
      cases heq
    · rintro count reading moves again rest heq ⟨low, high, rfl, -⟩
      cases heq

/-! ### Transfers -/

namespace Metered

/-- The next burst takes what the budget and the wanted bytes allow. -/
theorem fills (h : link.Metered wanted budget trace) :
    Fills (min budget wanted) (link.burst trace) := by
  -- A move takes one from both numbers, and so from the lesser of them. With no budget the count
  -- comes first.
  induction h with
  | done budget => exact ⟨Nat.zero_le _, .inl (Nat.min_zero budget).symm⟩
  | move hmove _ ih =>
    rw [burst_cons_of_isMove hmove, Nat.succ_min_succ]
    exact ih.cons
  | fault hmove hfailed =>
    rw [burst_cons_of_isMove hmove, burst_nil, Nat.succ_min_succ]
    exact ⟨Nat.succ_le_succ (Nat.zero_le _), .inr ⟨_, List.mem_cons_self, hfailed⟩⟩
  | grant hcounts => exact hcounts.countFirst.fills
  | wait hcounts => exact hcounts.countFirst.fills
  | stop hsilent => exact hsilent.countFirst.fills

/-- Nothing is moved before a budget is read. -/
theorem burst_eq_nil (h : link.Metered wanted 0 trace) : link.burst trace = [] :=
  List.length_eq_zero_iff.mp (Nat.le_zero.mp (Nat.zero_min wanted ▸ h.fills.1))

/-- The count is read again where the whole budget has been moved. -/
theorem spent {again : Event} {rest : Trace} (h : link.Metered wanted budget trace)
    (heq : trace = moves ++ again :: rest) (hmoves : ∀ move ∈ moves, link.IsMove move)
    (hagain : link.IsCount again) : moves.length = budget := by
  induction h generalizing moves with
  | done budget => simp at heq
  | move hmove _ ih =>
    cases moves with
    | nil =>
      obtain ⟨rfl, -⟩ := List.cons.inj heq
      exact absurd hmove hagain.not_isMove
    | cons move moves =>
      obtain ⟨-, hrest⟩ := List.cons.inj heq
      exact congrArg Nat.succ (ih hrest (List.forall_mem_cons.mp hmoves).2)
  | fault hmove =>
    cases moves with
    | nil =>
      obtain ⟨rfl, -⟩ := List.cons.inj heq
      exact absurd hmove hagain.not_isMove
    | cons move moves => simp at heq
  | grant hcounts => exact hcounts.countFirst.spent heq hmoves
  | wait hcounts => exact hcounts.countFirst.spent heq hmoves
  | stop hsilent => exact hsilent.countFirst.spent heq hmoves

/-- Each time the count is read, what is wanted is what has not been moved so far. -/
theorem recounts (h : link.Metered wanted budget trace) :
    trace.AtEach link.IsCount fun before event after =>
      link.Recount (wanted - before.countP (link.IsMove ·)) event after := by
  induction h with
  | done => exact atEach_of_never never_nil
  | @move wanted budget trace event hmove hrest ih =>
    refine atEach_cons (fun hcount => absurd hmove hcount.not_isMove) (ih.mono ?_)
    intro before event' after hrecount
    rwa [List.countP_cons_of_pos (by simpa using hmove), Nat.add_sub_add_right]
  | fault hmove =>
    exact atEach_of_never (never_cons.mpr ⟨fun hcount => hcount.not_isMove hmove, never_nil⟩)
  | grant hcounts hrest ih =>
    -- This count is settled by the transfer behind it, which begins with it as the budget.
    have hreading := hcounts.recount (Nat.succ_pos _) (fun _ => hrest.fills)
      fun _ _ _ => hrest.spent
    refine hcounts.atEach hreading (ih.mono ?_)
    intro before event after hrecount
    rwa [List.countP_append, hcounts.never_isMove.countP_eq_zero, Nat.zero_add]
  | @wait wanted micros reading trace hcounts hrest ih =>
    have hstall : ¬ link.IsMove (.stall micros) := not_isMove_stall micros
    -- A count of zero is followed by a stall, so neither a move nor a count comes next.
    have hreading : ∀ low high, reading = [low, high] →
        link.Recount (wanted + 1) low (high :: .stall micros :: trace) := by
      refine hcounts.recount (Nat.succ_pos wanted) (absurd rfl)
        fun moves again rest heq hmoves _ => ?_
      rw [eq_nil_of_first hmoves hstall heq, List.length_nil]
    refine hcounts.atEach hreading (atEach_cons (fun hcount => hcount.elim) (ih.mono ?_))
    intro before event after hrecount
    rwa [List.countP_append, hcounts.never_isMove.countP_eq_zero, Nat.zero_add,
      List.countP_cons_of_neg (by simpa using hstall)]
  | stop hsilent => exact hsilent.recounts

/-- Each move is out of the budget at the beginning or out of one that was granted. -/
theorem moves_granted (h : link.Metered wanted budget trace) :
    trace.OnlyAfter link.IsMove fun before =>
      ((∀ move ∈ before, link.IsMove move) ∧ before.length < budget) ∨ link.Granted before := by
  induction h with
  | done => exact onlyAfter_of_never never_nil
  | @move wanted budget trace event hmove hrest ih =>
    refine onlyAfter_cons (fun _ => .inl ⟨by simp, Nat.succ_pos budget⟩) (ih.mono ?_)
    rintro before (⟨hmoves, hlength⟩ | hgranted)
    · exact .inl ⟨List.forall_mem_cons.mpr ⟨hmove, hmoves⟩, Nat.succ_lt_succ hlength⟩
    · have hcons : link.Granted ([event] ++ before) := hgranted.append_left
      exact .inr hcons
  | @fault wanted budget event =>
    exact onlyAfter_cons (fun _ => .inl ⟨by simp, Nat.succ_pos budget⟩)
      (onlyAfter_of_never never_nil)
  | @grant wanted count reading trace hcounts hrest ih =>
    refine onlyAfter_append (onlyAfter_of_never hcounts.never_isMove) (ih.mono ?_)
    rintro before (⟨hmoves, hlength⟩ | hgranted)
    · exact .inr ⟨[], reading, before, count + 1, rfl, hcounts, hmoves, hlength⟩
    · exact .inr hgranted.append_left
  | @wait wanted micros reading trace hcounts hrest ih =>
    have hfront : Never link.IsMove (reading ++ [.stall micros]) :=
      never_append.mpr ⟨hcounts.never_isMove, never_cons.mpr ⟨not_isMove_stall micros, never_nil⟩⟩
    have hsplit : reading ++ .stall micros :: trace = (reading ++ [.stall micros]) ++ trace := by
      simp
    rw [hsplit]
    refine onlyAfter_append (onlyAfter_of_never hfront) (ih.mono ?_)
    rintro before (⟨-, hlength⟩ | hgranted)
    · exact absurd hlength (Nat.not_lt_zero _)
    · exact .inr hgranted.append_left
  | stop hsilent => exact onlyAfter_of_never hsilent.never_isMove

/-- Where there is no budget at the beginning, each move is out of one that was granted. -/
theorem granted (h : link.Metered wanted 0 trace) : trace.OnlyAfter link.IsMove link.Granted :=
  h.moves_granted.mono fun _ hgranted =>
    hgranted.resolve_left fun hbudget => absurd hbudget.2 (Nat.not_lt_zero _)

/-! ### Ways to go on -/

/-- A transfer of nothing is one of as much as one likes. -/
theorem nil (wanted : Nat) : link.Metered wanted 0 [] := by
  cases wanted with
  | zero => exact .done 0
  | succ wanted => exact .stop .out

theorem rounds {misses : List Trace} (hmisses : ∀ miss ∈ misses, link.Counts 0 miss)
    (h : link.Metered (wanted + 1) 0 back) :
    link.Metered (wanted + 1) 0 (link.poller.rounds misses ++ back) := by
  induction misses with
  | nil => exact h
  | cons miss misses ih =>
    obtain ⟨hmiss, hrest⟩ := List.forall_mem_cons.mp hmisses
    rw [Poller.rounds_cons, List.append_assoc, List.cons_append]
    exact .wait hmiss (ih hrest)

theorem allows {wait : Trace} {left : Nat} (hwait : link.Allows budget wait left)
    (h : link.Metered (wanted + 1) (left + 1) back) :
    link.Metered (wanted + 1) budget (wait ++ back) := by
  rcases hwait with ⟨rfl, rfl⟩ | ⟨rfl, misses, last, -, hmisses, hlast, rfl⟩
  · exact h
  · rw [List.append_assoc]
    exact rounds hmisses (.grant hlast h)

/-- Behind a paced transfer another goes on with what is left of the budget. -/
theorem paced {left : Nat} (hpaced : link.Paced budget moves front left)
    (hmoves : ∀ move ∈ moves, link.IsMove move) (h : link.Metered wanted left back) :
    link.Metered (wanted + moves.length) budget (front ++ back) := by
  induction hpaced with
  | done => exact h
  | move event hallows _ ih =>
    obtain ⟨hmove, hrest⟩ := List.forall_mem_cons.mp hmoves
    rw [List.append_assoc]
    exact allows hallows (.move hmove (ih hrest h))

end Metered

/-! ### Runs -/

theorem runs_readBurst_error {failure : Failure} (h : link.readBurst.Runs trace (.error failure)) :
    link.Silent trace := by
  rcases runs_bind_error_iff.mp h with hlow | ⟨front, back, low, rfl, hlow, hback⟩
  · obtain ⟨answer, rfl, hanswer⟩ := runs_checked_read_iff.mp hlow
    cases answer with
    | ok raw => cases hanswer
    | error fault => exact .low fault
  obtain ⟨answer, rfl, hanswer⟩ := runs_checked_read_iff.mp hlow
  rcases runs_bind_error_iff.mp hback with hhigh | ⟨_, _, _, -, -, hnone⟩
  · obtain ⟨answer', rfl, hanswer'⟩ := runs_checked_read_iff.mp hhigh
    cases answer with
    | error fault => cases hanswer
    | ok raw =>
      cases answer' with
      | ok raw' => cases hanswer'
      | error fault => exact .high raw fault
  · cases (runs_pure_iff.mp hnone).2

/-- A wait for a burst that fails comes to no budget. -/
theorem runs_awaitBurst_error {failure : Failure}
    (h : link.awaitBurst.Runs trace (.error failure)) : link.Metered (wanted + 1) 0 trace := by
  have hwait : ∃ failure,
      (link.poller.await link.timeouts.d link.probeBurst).Runs trace (.error failure) := by
    rw [awaitBurst_eq, runs_onTimeout_throw_iff] at h
    rcases h with ⟨-, hwait⟩ | ⟨-, hwait⟩
    · exact ⟨_, hwait⟩
    · exact ⟨_, hwait⟩
  obtain ⟨found, hwait⟩ := hwait
  obtain ⟨misses, hmisses, hend⟩ := Poller.exists_rounds_of_runs_await hwait
  have hzero : ∀ miss ∈ misses, link.Counts 0 miss :=
    fun miss hmem => runs_probeBurst_none_iff.mp (hmisses miss hmem)
  rcases hend with ⟨-, rfl, -⟩ | ⟨-, last, rfl, ⟨_, hresult, -⟩ | ⟨failure, -, hlast⟩⟩
  · have hwhole := Metered.rounds hzero (.nil (wanted + 1))
    rwa [List.append_nil] at hwhole
  · cases hresult
  · refine Metered.rounds hzero (.stop ?_)
    rcases runs_bind_error_iff.mp hlast with hburst | ⟨_, _, _, -, -, hnone⟩
    · exact runs_readBurst_error hburst
    · have hpure := runs_note_bind_iff.mp hnone
      cases (runs_pure_iff.mp hpure).2

theorem runs_refill_error {failure : Failure}
    (h : (link.refill budget).Runs trace (.error failure)) :
    link.Metered (wanted + 1) budget trace := by
  unfold refill at h
  split at h
  next hbudget =>
    rw [hbudget]
    exact runs_awaitBurst_error h
  next => cases (runs_pure_iff.mp h).2

/-- Whatever the counts are and wherever it stops, sending keeps to the burst count. -/
theorem runs_sendBytes_metered {bytes : Bytes} {result : Except Failure Unit}
    (h : (link.sendBytes bytes budget).Runs trace result) :
    link.Metered bytes.length budget trace := by
  induction bytes generalizing budget trace with
  | nil =>
    obtain ⟨rfl, -⟩ := runs_pure_iff.mp h
    exact .done budget
  | cons byte rest ih =>
    rcases runs_bind_iff.mp h with ⟨failure, -, hwait⟩ | ⟨wait, back, count, rfl, hwait, hback⟩
    · exact runs_refill_error hwait
    obtain ⟨left, rfl, hallows⟩ := runs_refill_ok_iff.mp hwait
    refine .allows hallows ?_
    rcases runs_checked_write_bind_iff.mp hback with ⟨fault, rfl, -⟩ | ⟨later, rfl, hlater⟩
    · exact .fault (.inl rfl) trivial
    · exact .move (.inl rfl) (ih hlater)

theorem runs_receiveBytes_metered {soFar : Bytes} {result : Except Failure (Bytes × Nat)}
    (h : (link.receiveBytes count budget soFar).Runs trace result) :
    link.Metered count budget trace := by
  induction count generalizing budget soFar trace with
  | zero =>
    obtain ⟨rfl, -⟩ := runs_pure_iff.mp h
    exact .done budget
  | succ count ih =>
    rcases runs_bind_iff.mp h with ⟨failure, -, hwait⟩ | ⟨wait, back, granted, rfl, hwait, hback⟩
    · exact runs_refill_error hwait
    obtain ⟨left, rfl, hallows⟩ := runs_refill_ok_iff.mp hwait
    refine .allows hallows ?_
    rcases runs_bind_iff.mp hback with ⟨failure, hfailure, hread⟩ | ⟨front, later, byte, rfl, hread,
      hlater⟩
    · obtain ⟨answer, rfl, hanswer⟩ := runs_checked_read_iff.mp hread
      cases answer with
      | ok raw => cases hanswer
      | error fault => exact .fault (.inr rfl) trivial
    · obtain ⟨answer, rfl, -⟩ := runs_checked_read_iff.mp hread
      exact .move (.inr rfl) (ih hlater)

end Fifo

end TpmLink
