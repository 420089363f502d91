import TpmLink.Proofs.CommandBuffer.Handshake

/-!
# How often the chip is sent to idle

Once for each attempt to become ready: behind every attempt that another one follows, and at the end
of the command. What the chip answers to it decides nothing.
-/

namespace TpmLink

namespace CommandBuffer

open Script Trace

variable (link : CommandBuffer)

/-- So many attempts to become ready are made. All but the last lapse and are followed by the way to
idle; behind the last one there is no access of an attempt. -/
inductive Attempted (link : CommandBuffer) : Nat → Trace → Prop
  | last {attempt rest : Trace} (isAttempt : link.IsAttempt attempt)
      (ends : link.Readied attempt ∨ attempt.StopsWith Event.Failed ∨ link.Lapsed attempt)
      (ended : rest.Never link.IsHandshake) : Attempted link 1 (attempt ++ rest)
  | again {count : Nat} {attempt rest : Trace} (answer : Except BusFault Unit)
      (isAttempt : link.IsAttempt attempt) (lapsed : link.Lapsed attempt)
      (others : Attempted link count rest) :
      Attempted link (count + 1) (attempt ++ link.exitWrite answer :: rest)

/-- What has nothing to do with becoming ready. -/
def AvoidsReady : Event → Prop :=
  Event.Within (fun addr => ¬ link.IsReadySource addr)
    fun addr => addr ≠ BufferRegister.request.addr link.base

variable {link} {command : Bytes} {capacity : Nat} {trace : Trace} {event : Event}

/-! ### Who sends the chip to idle -/

theorem isGoIdle_exitWrite (answer : Except BusFault Unit) :
    link.IsGoIdle (link.exitWrite answer) :=
  ⟨rfl, rfl, rfl⟩

theorem AvoidsReady.not_isGoIdle (h : link.AvoidsReady event) : ¬ link.IsGoIdle event := by
  cases event with
  | write => exact fun hidle => h hidle.1
  | _ => exact id

theorem AvoidsReady.not_isHandshake (h : link.AvoidsReady event) : ¬ link.IsHandshake event := by
  rintro (hread | hrequest)
  · exact Event.Within.not_readsFrom h (fun _ => id) hread
  · exact Event.Within.not_writesTo h (fun _ => id) hrequest.isRequest

/-- From the load on, a session has nothing to do with becoming ready. -/
theorem only_behindReady (hlength : command.length ≤ dataBufferSize)
    (hcapacity : capacity ≤ dataBufferSize) :
    (link.writeCommand command >>= fun _ =>
      link.start >>= fun _ => link.readResponse capacity).Only link.AvoidsReady := by
  have hload : ∀ event, link.IsLoad event → link.AvoidsReady event := by
    intro event hevent
    refine (Event.WritesTo.within hevent).mono (fun _ => False.elim) ?_
    rintro _ haddr rfl
    exact not_inLoad_register (by decide) haddr
  refine only_bind ((only_writeCommand hlength).mono hload) fun _ trace result h => ?_
  obtain ⟨⟨answer, middle, rfl, hmiddle⟩, -⟩ := runs_execution hcapacity h
  have hrest : ∀ event ∈ middle, link.AvoidsReady event := by
    intro event hmem
    refine (hmiddle.confined event hmem).mono ?_ ?_
    · rintro addr (rfl | hdata) hsource
      · rcases hsource with hstatus | hrequest
        · exact absurd (addr_inj.mp hstatus) (by decide)
        · exact absurd (addr_inj.mp hrequest) (by decide)
      · rcases hsource with rfl | rfl
        · exact not_inData_register (by decide) hdata
        · exact not_inData_register (by decide) hdata
    · rintro _ rfl
      exact mt addr_inj.mp (by decide)
  exact List.forall_mem_cons.mpr ⟨mt addr_inj.mp (by decide), hrest⟩

/-! ### Attempts -/

theorem Attempted.exists_isHandshake {count : Nat} (h : link.Attempted count trace) :
    ∃ event ∈ trace, link.IsHandshake event := by
  have hfront : ∀ {attempt rest : Trace}, link.IsAttempt attempt →
      ∃ event ∈ attempt ++ rest, link.IsHandshake event := by
    intro attempt rest hattempt
    obtain ⟨event, hmem, hevent⟩ := hattempt.exists_isHandshake
    exact ⟨event, List.mem_append_left _ hmem, hevent⟩
  cases h with
  | last hattempt => exact hfront hattempt
  | again _ hattempt => exact hfront hattempt

/-- Behind the last attempt there is none, but behind the way to idle after another one there is, so
no attempt is both. -/
theorem Attempted.not_last {count : Nat} {attempt attempt' rest rest' : Trace}
    {answer : Except BusFault Unit} (hothers : link.Attempted count rest)
    (hattempt' : link.IsAttempt attempt') (hended : rest'.Never link.IsHandshake) :
    attempt ++ link.exitWrite answer :: rest ≠ attempt' ++ rest' := by
  intro heq
  rcases append_eq_append_cons heq.symm with ⟨more, rfl, -⟩ | ⟨front, -, rfl⟩
  · exact hattempt'.staysActive (link.exitWrite answer) (by simp) (isGoIdle_exitWrite answer)
  · obtain ⟨event, hmem, hevent⟩ := hothers.exists_isHandshake
    exact hended event (by simp [hmem]) hevent

/-- How many attempts were made is decided by the trace. -/
theorem Attempted.unique {count count' : Nat} (h : link.Attempted count trace)
    (h' : link.Attempted count' trace) : count = count' := by
  generalize htrace : trace = trace' at h'
  induction h generalizing count' trace' with
  | last hattempt _ hended =>
    cases h' with
    | last => rfl
    | again answer _ _ hothers' => exact absurd htrace.symm (hothers'.not_last hattempt hended)
  | again answer hattempt _ hothers ih =>
    cases h' with
    | last hattempt' _ hended' => exact absurd htrace (hothers.not_last hattempt' hended')
    | again answer' hattempt' _ hothers' =>
      -- An attempt never sends the chip to idle, so both end where that happens first.
      obtain ⟨-, -, hrest⟩ := hattempt.staysActive.first_unique hattempt'.staysActive
        (isGoIdle_exitWrite answer) (isGoIdle_exitWrite answer') htrace
      exact congrArg Nat.succ (ih _ hrest hothers')

theorem Attempted.after {lost rest : Trace} {failed count : Nat}
    (hlost : link.OutOfTime failed lost) (h : link.Attempted count rest) :
    link.Attempted (failed + count) (lost ++ rest) := by
  induction hlost with
  | none => rwa [Nat.zero_add]
  | again answer htimedOut _ ih =>
    rw [List.append_assoc, List.cons_append, Nat.add_right_comm]
    exact .again answer (isAttempt_of_handshake (runs_handshake_timeout_iff.mpr htimedOut))
      htimedOut.lapsed ih

/-! ### Counting -/

theorem countP_exitWrite (answer : Except BusFault Unit) :
    List.countP link.IsGoIdle [link.exitWrite answer] = 1 := by
  rw [List.countP_singleton, if_pos (decide_eq_true (isGoIdle_exitWrite answer))]

theorem OutOfTime.countP_eq {failed : Nat} (h : link.OutOfTime failed trace) :
    trace.countP link.IsGoIdle = failed := by
  induction h with
  | none => rfl
  | @again count attempt rest answer htimedOut _ ih =>
    have hattempt := Never.countP_eq_zero
      (only_handshake _ _ (runs_handshake_timeout_iff.mpr htimedOut))
    have hrest : List.countP link.IsGoIdle (link.exitWrite answer :: rest) = 1 + count := by
      rw [← List.singleton_append, List.countP_append, countP_exitWrite, ih]
    rw [List.countP_append, hattempt, hrest, Nat.zero_add, Nat.add_comm]

/-- What avoids the ready phase is not an attempt, nor is the exit behind it. -/
theorem never_isHandshake_exit {back : Trace} (answer : Except BusFault Unit)
    (hback : ∀ event ∈ back, link.AvoidsReady event) :
    Trace.Never link.IsHandshake (back ++ [link.exitWrite answer]) := by
  refine never_append.mpr ⟨fun event hmem => (hback event hmem).not_isHandshake,
    never_cons.mpr ⟨?_, never_nil⟩⟩
  rintro (hread | hrequest)
  · exact hread
  · exact not_isReadyRequest_exitWrite answer hrequest

/-- The last attempt, with all that follows it up to the exit. -/
theorem attempted_of_attempts {lost last back : Trace} {failed : Nat}
    {result : Except Failure Unit} (answer : Except BusFault Unit)
    (hlost : link.OutOfTime failed lost) (hlast : link.handshake.Runs last result)
    (hback : ∀ event ∈ back, link.AvoidsReady event) :
    link.Attempted
      (List.countP link.IsGoIdle (lost ++ (last ++ (back ++ [link.exitWrite answer]))))
      (lost ++ (last ++ (back ++ [link.exitWrite answer]))) := by
  have hended := never_isHandshake_exit answer hback
  have hidle : back.Never link.IsGoIdle := fun event hmem => (hback event hmem).not_isGoIdle
  have hattempt := Never.countP_eq_zero (only_handshake _ _ hlast)
  rw [List.countP_append, List.countP_append, List.countP_append, hlost.countP_eq, hattempt,
    hidle.countP_eq_zero, countP_exitWrite, Nat.zero_add, Nat.zero_add]
  exact .after hlost (.last (isAttempt_of_handshake hlast) (handshake_ends hlast) hended)

/-- Every command that fits the buffer sends the chip to idle once for each attempt. -/
theorem runs_execute_attempted {maxResponse : Nat} {result : Except Failure Bytes}
    (hlength : command.length ≤ dataBufferSize)
    (h : (link.execute command maxResponse).Runs trace result) :
    link.Attempted (trace.countP link.IsGoIdle) trace := by
  obtain ⟨middle, answer, rfl, hsession⟩ := (runs_execute_iff hlength).mp h
  have hmade : ∀ {ready back : Trace} {found : Except Failure Unit},
      link.makeReady.Runs ready found → (∀ event ∈ back, link.AvoidsReady event) →
      link.Attempted (List.countP link.IsGoIdle (ready ++ back ++ [link.exitWrite answer]))
        (ready ++ back ++ [link.exitWrite answer]) := by
    intro ready back found hready hback
    obtain ⟨failed, lost, last, rfl, hlost, hends⟩ := runs_makeReady_iff.mp hready
    have hlast : ∃ found, link.handshake.Runs last found := by
      rcases hends with ⟨-, -, hlast⟩ | ⟨-, -, hlast⟩
      · exact ⟨_, hlast⟩
      · exact ⟨_, runs_handshake_timeout_iff.mpr hlast⟩
    obtain ⟨found, hlast⟩ := hlast
    rw [List.append_assoc, List.append_assoc]
    exact attempted_of_attempts answer hlost hlast hback
  rcases runs_bind_iff.mp hsession with ⟨failure, -, hready⟩ | ⟨ready, back, ⟨⟩, rfl, hready, hback⟩
  · have hnone : ∀ event ∈ ([] : Trace), link.AvoidsReady event := by simp
    simpa using hmade hready hnone
  · exact hmade hready
      (only_behindReady hlength (Nat.min_le_right _ _) _ _ (runs_note_bind_iff.mp hback))

/-! ### Answers -/

theorem ignores_makeReady : link.makeReady.Ignores link.IsGoIdle := by
  have hhandshake : link.handshake.Ignores link.IsGoIdle := ignores_of_only only_handshake
  have hrewind : ∀ attempt, (link.rewind attempt).Ignores link.IsGoIdle :=
    fun _ => ignores_of_single_write fun _ _ => runs_rewind_iff
  have hretry : ∀ number left, (retryFrom (fun attempt _ => link.rewind attempt)
      (fun _ => link.handshake) number left).Ignores link.IsGoIdle := by
    intro number left
    induction left generalizing number with
    | zero => exact hhandshake
    | succ left ih => exact hhandshake.onTimeout ((hrewind _).bind fun _ => ih (number + 1))
  exact (hretry _ _).onTimeout (ignores_of_only (only_bind (only_note _) fun _ => only_throw _))

/-- Whether the chip goes to idle when it is told to, a command learns only from what it reads. -/
theorem ignores_execute {maxResponse : Nat} :
    (link.execute command maxResponse).Ignores link.IsGoIdle := by
  unfold execute
  split
  · exact ignores_of_only (only_bind (only_note _) fun _ => only_throw _)
  next hlength =>
    have hrest : (link.writeCommand command >>= fun _ => link.start >>= fun _ =>
        link.readResponse (min maxResponse dataBufferSize)).Only
          fun event => ¬ link.IsGoIdle event :=
      (only_behindReady (Nat.le_of_not_lt hlength) (Nat.min_le_right _ _)).mono
        fun _ => AvoidsReady.not_isGoIdle
    have hsession : (link.session command (min maxResponse dataBufferSize)).Ignores link.IsGoIdle :=
      ignores_makeReady.bind fun _ => ignores_of_only (only_bind (only_note _) fun _ => hrest)
    exact hsession.ensuring (ignores_of_single_write fun _ _ => runs_exit_iff)

/-! ### Cleaning up -/

/-- A command that does not fit the buffer touches nothing. Any other ends by sending the chip to
idle, whatever the answer to that, and does so once for each attempt to become ready. -/
structure CleansUp (link : CommandBuffer) (command : Bytes) (maxResponse : Nat) (trace : Trace)
    (result : Except Failure Bytes) : Prop where
  tooLong : dataBufferSize < command.length → trace = [] ∧ result = .error .invalidParameter
  exits : command.length ≤ dataBufferSize → ∃ middle answer,
    trace = middle ++ [link.exitWrite answer] ∧
    ∀ answer' result', (link.execute command maxResponse).Runs
      (middle ++ [link.exitWrite answer']) result' ↔ result' = result
  attempts : command.length ≤ dataBufferSize →
    ∀ count, link.Attempted count trace ↔ trace.countP link.IsGoIdle = count

theorem runs_execute_cleansUp {maxResponse : Nat} {result : Except Failure Bytes}
    (h : (link.execute command maxResponse).Runs trace result) :
    link.CleansUp command maxResponse trace result where
  tooLong hlength := (runs_execute_tooLong_iff hlength).mp h
  exits hlength := by
    obtain ⟨middle, answer, rfl, hsession⟩ := (runs_execute_iff hlength).mp h
    exact ⟨middle, answer, rfl, runs_last_iff (fun _ _ => runs_execute_iff hlength) hsession⟩
  attempts hlength count := by
    have hattempted := runs_execute_attempted hlength h
    constructor
    · exact hattempted.unique
    · rintro rfl
      exact hattempted

end CommandBuffer

end TpmLink
