import TpmLink.Proofs.CommandBuffer.Idling

/-!
# How often ready is tried

Each attempt begins anew: with the look for idle, or at once with the request on a chip that takes
commands at any time. One that lapses has waited in vain for its whole budget, and is followed by
the way to idle and by another attempt, as long as there is one left. A fault in an attempt ends the
command, and so does the lapse of the last attempt, before anything is loaded or started.
-/

namespace TpmLink

namespace CommandBuffer

open Script Trace

variable (link : CommandBuffer)

/-- Attempts, each of which is followed by the way to idle, with its answer. -/
def rewound (lost : List (Trace × Except BusFault Unit)) : Trace :=
  lost.flatMap fun attempt => attempt.1 ++ [link.exitWrite attempt.2]

/-- An access to the data buffer, or a start. -/
def IsCommand (event : Event) : Prop :=
  link.IsDataWrite event ∨ link.IsDataRead event ∨ link.IsStart event

/-- The last attempt and what follows it. Either the chip is ready, or nothing but the exit
follows. -/
inductive Decided (link : CommandBuffer) (lost : List (Trace × Except BusFault Unit))
    (last : Trace) : Trace → Except Failure Bytes → Prop
  | ready {rest : Trace} {result : Except Failure Bytes} (ready : link.Readied last) :
      Decided link lost last rest result
  | fault (answer : Except BusFault Unit) (stops : last.StopsWith Event.Failed) :
      Decided link lost last [link.exitWrite answer] (.error .io)
  | exhausted (answer : Except BusFault Unit)
      (spent : lost.length + 1 = max 1 link.timeouts.retryMax) (lapsed : link.Lapsed last)
      (untouched : Trace.Never link.IsCommand
        (link.rewound lost ++ (last ++ [link.exitWrite answer]))) :
      Decided link lost last [link.exitWrite answer] (.error .deviceBusy)

/-- The ready phase with what follows it. -/
structure Retried (lost : List (Trace × Except BusFault Unit)) (last rest : Trace)
    (result : Except Failure Bytes) : Prop where
  atMost : lost.length + 1 ≤ max 1 link.timeouts.retryMax
  attempts : ∀ attempt ∈ lost.map Prod.fst ++ [last], link.IsAttempt attempt
  lapses : ∀ attempt ∈ lost.map Prod.fst, link.Lapsed attempt
  decided : link.Decided lost last rest result
  behind : rest.Never link.IsHandshake

/-- A command that does not fit the buffer is refused without an attempt; any other begins with the
ready phase. -/
structure RetryPolicy (command : Bytes) (trace : Trace) (result : Except Failure Bytes) : Prop where
  refused : dataBufferSize < command.length → trace = []
  tried : command.length ≤ dataBufferSize → ∃ lost last rest,
    trace = link.rewound lost ++ (last ++ rest) ∧ link.Retried lost last rest result

variable {link} {command : Bytes} {trace : Trace} {found : Except Failure Unit}

/-! ### Attempt after attempt -/

/-- Attempts that run out of time, one by one. -/
theorem OutOfTime.exists_rewound {count : Nat} (h : link.OutOfTime count trace) :
    ∃ lost, trace = link.rewound lost ∧ lost.length = count ∧
      ∀ attempt ∈ lost.map Prod.fst, link.TimedOut attempt := by
  induction h with
  | none => exact ⟨[], rfl, rfl, by simp⟩
  | @again count attempt rest answer htimedOut _ ih =>
    obtain ⟨lost, rfl, rfl, hlost⟩ := ih
    exact ⟨(attempt, answer) :: lost, by simp [rewound], rfl,
      List.forall_mem_cons.mpr ⟨htimedOut, hlost⟩⟩

/-- The ready phase touches neither the data buffer nor the start register. -/
theorem IsReadyPhase.not_isCommand {event : Event} (h : link.IsReadyPhase event) :
    ¬ link.IsCommand event := by
  rintro (hwrite | hread | hstart)
  · refine Event.Within.not_writesTo h ?_ hwrite
    rintro _ rfl
    exact not_inData_register (by decide)
  · exact h.not_isDataRead hread
  · exact h.not_isStart hstart

/-- The ready phase, with its last attempt, from what it came to. -/
theorem retried_of_attempts {lost : List (Trace × Except BusFault Unit)} {last rest : Trace}
    {result : Except Failure Bytes} (hcount : lost.length + 1 ≤ max 1 link.timeouts.retryMax)
    (hlost : ∀ attempt ∈ lost.map Prod.fst, link.TimedOut attempt)
    (hlast : link.handshake.Runs last found) (hdecided : link.Decided lost last rest result)
    (hbehind : rest.Never link.IsHandshake) : link.Retried lost last rest result where
  atMost := hcount
  attempts := by
    refine List.forall_mem_append.mpr ⟨fun attempt hmem => ?_,
      List.forall_mem_singleton.mpr (isAttempt_of_handshake hlast)⟩
    exact isAttempt_of_handshake (runs_handshake_timeout_iff.mpr (hlost attempt hmem))
  lapses attempt hmem := (hlost attempt hmem).lapsed
  decided := hdecided
  behind := hbehind

/-- A ready phase that fails is followed by the exit. -/
theorem runs_makeReady_error {failure : Failure} {answer : Except BusFault Unit}
    (h : link.makeReady.Runs trace (.error failure)) :
    ∃ lost last, trace = link.rewound lost ++ last ∧
      link.Retried lost last [link.exitWrite answer] (.error failure) := by
  have hexit : Trace.Never link.IsHandshake ([] ++ [link.exitWrite answer]) :=
    never_isHandshake_exit answer (by simp)
  have hphase := only_makeReady _ _ h
  obtain ⟨failed, _, last, rfl, htimedOut, hends⟩ := runs_makeReady_iff.mp h
  obtain ⟨lost, rfl, rfl, hlost⟩ := htimedOut.exists_rewound
  refine ⟨lost, last, rfl, ?_⟩
  rcases hends with ⟨hcount, hresult, hlast⟩ | ⟨hcount, hresult, hlast⟩
  -- An attempt that is not repeated has not timed out, and a fault is all else that can end it.
  · have hio : failure = .io := by
      have hmem := failsWith_handshake last failure hlast
      simp only [List.mem_cons, List.not_mem_nil, or_false] at hmem
      exact hmem.resolve_left fun htimeout => hresult (htimeout ▸ rfl)
    subst hio
    have hstops := stopsWith_of_handshake hlast
    exact retried_of_attempts hcount hlost hlast (.fault answer hstops) hexit
  · cases hresult
    have huntouched : Trace.Never link.IsCommand
        (link.rewound lost ++ (last ++ [link.exitWrite answer])) := by
      rw [← List.append_assoc]
      refine never_append.mpr ⟨fun event hmem => (hphase event hmem).not_isCommand, ?_⟩
      have hexitPhase : link.IsReadyPhase (link.exitWrite answer) := rfl
      exact never_cons.mpr ⟨hexitPhase.not_isCommand, never_nil⟩
    exact retried_of_attempts (Nat.le_of_eq hcount) hlost (runs_handshake_timeout_iff.mpr hlast)
      (.exhausted answer hcount hlast.lapsed huntouched) hexit

theorem runs_execute_retries {maxResponse : Nat} {result : Except Failure Bytes}
    (h : (link.execute command maxResponse).Runs trace result) :
    link.RetryPolicy command trace result where
  refused hlength := ((runs_execute_tooLong_iff hlength).mp h).1
  tried hlength := by
    obtain ⟨middle, answer, rfl, hsession⟩ := (runs_execute_iff hlength).mp h
    rcases runs_bind_iff.mp hsession with ⟨failure, rfl, hready⟩ | ⟨ready, back, ⟨⟩, rfl, hready,
      hback⟩
    · obtain ⟨lost, last, rfl, hretried⟩ := runs_makeReady_error hready
      exact ⟨lost, last, [link.exitWrite answer], List.append_assoc .., hretried⟩
    have hrest := only_behindReady hlength (Nat.min_le_right _ _) _ _ (runs_note_bind_iff.mp hback)
    have hbehind := never_isHandshake_exit answer hrest
    obtain ⟨failed, _, last, rfl, htimedOut, ⟨hcount, -, hlast⟩ | ⟨-, hresult, -⟩⟩ :=
      runs_makeReady_iff.mp hready
    · obtain ⟨lost, rfl, rfl, hlost⟩ := htimedOut.exists_rewound
      exact ⟨lost, last, back ++ [link.exitWrite answer], by simp, retried_of_attempts hcount hlost
        hlast (.ready (readied_of_handshake hlast)) hbehind⟩
    · cases hresult

/-- On every device and from each of its states, a command keeps to the limit of attempts, each of
which begins anew, and gives the chip up only when the last of them has lapsed. -/
theorem buffer_execute_retries {σ : Type} (device : Device σ) (state : σ) (link : CommandBuffer)
    (command : Bytes) (maxResponse : Nat) :
    link.RetryPolicy command ((link.execute command maxResponse).trace device state)
      ((link.execute command maxResponse).run device state).1 :=
  runs_execute_retries (runs_trace device _ state)

end CommandBuffer

end TpmLink
