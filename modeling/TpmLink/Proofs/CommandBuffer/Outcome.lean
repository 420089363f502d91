import TpmLink.Proofs.Bus.Answers
import TpmLink.Proofs.CommandBuffer.Execution

/-!
# What a command on the command buffer comes to

The trace decides the result. The chip counts as busy exactly where every attempt to become ready
timed out, or where the start bit was never read clear, neither in the budget of the command nor in
that of the cancel. Otherwise, without a fault, the result is the verdict on the bytes that were
read from the data buffer.
-/

namespace TpmLink

namespace CommandBuffer

open Script Trace

variable (link : CommandBuffer)

/-- All attempts to become ready time out. -/
def NeverReady (trace : Trace) : Prop := link.OutOfTime (max 1 link.timeouts.retryMax) trace

/-- The start bit is never read clear: not in the budget of the command, and not in that of the
cancel either. -/
def NeverDone (trace : Trace) : Prop :=
  ∃ front polls polls' answer, trace = front ++ link.startWrite (.ok ()) :: (polls ++
      link.cancelWrite 1 (.ok ()) ::
        (polls' ++ [link.cancelWrite 0 (.ok ()), link.exitWrite answer])) ∧
    link.Misses .start 0 1 link.timeouts.max polls ∧ link.Misses .start 0 1 link.timeouts.b polls'

/-- The chip does not become ready, or does not finish. -/
def Unresponsive (trace : Trace) : Prop := link.NeverReady trace ∨ link.NeverDone trace

variable {link} {command : Bytes} {capacity : Nat} {trace : Trace} {result : Except Failure Bytes}

theorem failsWith_writeCommand : (link.writeCommand command).FailsWith [.io] := by
  have hbytes : ∀ bytes addr, (writeBytes addr bytes).FailsWith [.io] := by
    intro bytes
    induction bytes with
    | nil => exact fun _ => failsWith_pure _
    | cons byte rest ih =>
      exact fun addr => (failsWith_checked_write (List.mem_singleton.mpr rfl)).bind fun _ => ih _
  refine (hbytes _ _).bind fun _ => failsWith_writeReg.bind fun _ => ?_
  refine failsWith_writeReg.bind fun _ => failsWith_writeReg.bind fun _ => ?_
  refine FailsWith.bind ?_ fun _ => failsWith_writeReg
  exact failsWith_checked_write (List.mem_singleton.mpr rfl)

theorem failsWith_session :
    (link.session command capacity).FailsWith
      [.deviceBusy, .io, .notSupported, .bufferTooSmall] := by
  refine (failsWith_makeReady.mono (by simp)).bind fun _ => (failsWith_note _).bind fun _ => ?_
  refine (failsWith_writeCommand.mono (by simp)).bind fun _ => ?_
  exact (failsWith_start.mono (by simp)).bind fun _ => failsWith_readResponse.mono (by simp)

/-! ### Before the start -/

theorem only_makeReady : link.makeReady.Only link.IsReadyPhase :=
  fun _ _ h => (runs_makeReady h).1.confined

theorem IsReadyPhase.not_isStart {event : Event} (h : link.IsReadyPhase event) :
    ¬ link.IsStart event :=
  Event.Within.not_writesTo h fun _ haddr => haddr ▸ mt addr_inj.mp (by decide)

theorem IsReadyPhase.not_isDataRead {event : Event} (h : link.IsReadyPhase event) :
    ¬ link.IsDataRead event := by
  refine Event.Within.not_readsFrom h ?_
  rintro _ (rfl | rfl)
  · exact not_inData_register (by decide)
  · exact not_inData_register (by decide)

theorem IsLoad.not_isStart {event : Event} (h : link.IsLoad event) : ¬ link.IsStart event := by
  refine (Event.WritesTo.within h).not_writesTo ?_
  rintro _ hload rfl
  exact not_inLoad_register (by decide) hload

/-- From the start on, the start register is written only once. -/
theorem runs_execution_at_start {front back : Trace} {answer : Except BusFault Unit}
    (hcapacity : capacity ≤ dataBufferSize)
    (h : (link.start >>= fun _ => link.readResponse capacity).Runs
      (front ++ link.startWrite answer :: back) result) : front = [] := by
  obtain ⟨⟨answer', middle, heq, hmiddle⟩, -⟩ := runs_execution hcapacity h
  cases front with
  | nil => rfl
  | cons event front =>
    obtain ⟨-, rfl⟩ := List.cons.inj heq
    have hcancel : link.startWrite answer ∉ front ++ link.startWrite answer :: back := by
      intro hmem
      have hwrite : BufferRegister.start.addr link.base = BufferRegister.cancel.addr link.base :=
        hmiddle.confined _ hmem
      exact absurd (addr_inj.mp hwrite) (by decide)
    exact absurd (by simp) hcancel

/-- The rest of a session from its start on, if it gets there. -/
theorem runs_session_at_start {front back : Trace} {answer : Except BusFault Unit}
    (hlength : command.length ≤ dataBufferSize) (hcapacity : capacity ≤ dataBufferSize)
    (h : (link.session command capacity).Runs (front ++ link.startWrite answer :: back) result) :
    (link.start >>= fun _ => link.readResponse capacity).Runs
      (link.startWrite answer :: back) result := by
  have hready : link.makeReady.Only fun event => ¬ link.IsStart event :=
    only_makeReady.mono fun _ => IsReadyPhase.not_isStart
  have hload : (link.writeCommand command).Only fun event => ¬ link.IsStart event :=
    (only_writeCommand hlength).mono fun _ => IsLoad.not_isStart
  have hstart : link.IsStart (link.startWrite answer) := rfl
  obtain ⟨ready, rest, -, rfl, -, hrest⟩ := runs_bind_past hready hstart h
  obtain ⟨load, rest, -, rfl, -, hrun⟩ :=
    runs_bind_past hload hstart (runs_note_bind_iff.mp hrest)
  obtain rfl := runs_execution_at_start hcapacity hrun
  exact hrun

/-! ### Busy -/

/-- Where every attempt has timed out, the session ends there. -/
theorem result_of_neverReady {answer : Except BusFault Unit}
    (hnever : link.NeverReady (trace ++ [link.exitWrite answer]))
    (h : (link.session command capacity).Runs trace result) : result = .error .deviceBusy := by
  have hattempts : max 1 link.timeouts.retryMax = link.timeouts.retryMax - 1 + 1 := by omega
  rw [NeverReady, hattempts] at hnever
  obtain ⟨lost, attempt, answer', heq, hlost, hattempt⟩ := hnever.last
  rw [← List.append_assoc] at heq
  obtain ⟨rfl, -⟩ := List.append_inj' heq rfl
  have hbusy : link.makeReady.Runs (lost ++ attempt) (.error .deviceBusy) :=
    runs_makeReady_iff.mpr ⟨_, lost, attempt, rfl, hlost, .inr ⟨hattempts.symm, rfl, hattempt⟩⟩
  exact hbusy.result_of_bind h

/-- Where neither wait for the end was met, the session ends there. -/
theorem result_of_neverDone {answer : Except BusFault Unit}
    (hlength : command.length ≤ dataBufferSize) (hcapacity : capacity ≤ dataBufferSize)
    (hnever : link.NeverDone (trace ++ [link.exitWrite answer]))
    (h : (link.session command capacity).Runs trace result) : result = .error .deviceBusy := by
  obtain ⟨front, polls, polls', answer', heq, hpolls, hpolls'⟩ := hnever
  have hsplit : front ++ link.startWrite (.ok ()) :: (polls ++ link.cancelWrite 1 (.ok ()) ::
        (polls' ++ [link.cancelWrite 0 (.ok ()), link.exitWrite answer'])) =
      (front ++ link.startWrite (.ok ()) :: (polls ++ link.cancelWrite 1 (.ok ()) ::
        (polls' ++ [link.cancelWrite 0 (.ok ())]))) ++ [link.exitWrite answer'] := by simp
  rw [hsplit] at heq
  obtain ⟨rfl, -⟩ := List.append_inj' heq rfl
  have hrun := runs_session_at_start hlength hcapacity h
  have hbusy := runs_start_busy_iff.mpr ⟨polls, polls', rfl, hpolls, hpolls'⟩
  exact hbusy.result_of_bind hrun

/-- A busy chip has spent the budgets of all attempts, or those of the command and the cancel. -/
theorem unresponsive_of_runs_session (answer : Except BusFault Unit)
    (h : (link.session command capacity).Runs trace (.error .deviceBusy)) :
    link.Unresponsive (trace ++ [link.exitWrite answer]) := by
  rcases runs_bind_error_iff.mp h with hready | ⟨ready, rest, ⟨⟩, rfl, -, hrest⟩
  · obtain ⟨failed, lost, last, rfl, hlost, ⟨-, -, hlast⟩ | ⟨hfailed, -, hlast⟩⟩ :=
      runs_makeReady_iff.mp hready
    · exact absurd (failsWith_handshake _ _ hlast) (by decide)
    · have hall := hlost.append (.again answer hlast .none)
      rw [Nat.zero_add, Nat.add_comm, hfailed] at hall
      exact .inl (by rwa [List.append_assoc])
  rcases runs_bind_error_iff.mp (runs_note_bind_iff.mp hrest) with hload | ⟨load, run, ⟨⟩, rfl, -,
    hrun⟩
  · exact absurd (failsWith_writeCommand _ _ hload) (by decide)
  rcases runs_bind_error_iff.mp hrun with hstart | ⟨start, response, ⟨⟩, rfl, -, hresponse⟩
  · obtain ⟨polls, polls', rfl, hpolls, hpolls'⟩ := runs_start_busy_iff.mp hstart
    exact .inr ⟨ready ++ load, polls, polls', answer, by simp, hpolls, hpolls'⟩
  · exact absurd (failsWith_readResponse _ _ hresponse) (by decide)

/-! ### Verdict -/

/-- A session without a fault on a chip that is not busy reads the response last. -/
theorem runs_session_verdict (hlength : command.length ≤ dataBufferSize)
    (hbusy : result ≠ .error .deviceBusy) (hio : result ≠ .error .io)
    (h : (link.session command capacity).Runs trace result) :
    ∃ front values, trace = front ++ reading link.data values ∧ front.Never link.IsDataRead ∧
      values.length = Response.demand (lowBytes values) capacity ∧
      result = Response.verdict (lowBytes values) capacity := by
  have hneither : ∀ failure, result = .error failure → failure ∉ [Failure.deviceBusy, .io] :=
    fun _ => not_mem_of_ne hbusy hio
  rcases runs_bind_iff.mp h with ⟨failure, hresult, hready⟩ | ⟨ready, rest, ⟨⟩, rfl, hready, hrest⟩
  · exact absurd (failsWith_makeReady _ _ hready) (hneither _ hresult)
  rcases runs_bind_iff.mp (runs_note_bind_iff.mp hrest) with ⟨failure, hresult, hload⟩ | ⟨load, run,
    ⟨⟩, rfl, hload, hrun⟩
  · exact absurd (failsWith_writeCommand.mono (by simp) _ _ hload) (hneither _ hresult)
  rcases runs_bind_iff.mp hrun with ⟨failure, hresult, hstart⟩ | ⟨start, response, ⟨⟩, rfl, hstart,
    hresponse⟩
  · exact absurd (failsWith_start _ _ hstart) (hneither _ hresult)
  obtain ⟨values, rfl, hdemand, hverdict⟩ := runs_readResponse_verdict hio hresponse
  obtain ⟨answer, polls, rfl, hpolls, -⟩ := runs_start hstart
  have hbefore : Trace.Never link.IsDataRead (ready ++ (load ++ link.startWrite answer :: polls)) :=
    never_append.mpr ⟨fun event hmem => (only_makeReady _ _ hready event hmem).not_isDataRead,
      never_append.mpr ⟨never_readsFrom (fun event hmem =>
        (only_writeCommand hlength _ _ hload event hmem).within) fun _ => False.elim,
        hpolls.never_isDataRead answer⟩⟩
  exact ⟨_, values, by simp [startWrite], hbefore, hdemand, hverdict⟩

/-! ### The whole -/

variable {maxResponse : Nat}

/-- The chip counts as busy exactly where it does not become ready or does not finish. -/
theorem busy_iff_unresponsive (hlength : command.length ≤ dataBufferSize)
    (h : (link.execute command maxResponse).Runs trace result) :
    result = .error .deviceBusy ↔ link.Unresponsive trace := by
  obtain ⟨middle, answer, rfl, hsession⟩ := (runs_execute_iff hlength).mp h
  constructor
  · rintro rfl
    exact unresponsive_of_runs_session answer hsession
  · rintro (hnever | hnever)
    · exact result_of_neverReady hnever hsession
    · exact result_of_neverDone hlength (Nat.min_le_right _ _) hnever hsession

/-- Without a fault a chip that is not busy has its data buffer read, from its start on and as far
as the header asks for it, and the result is the verdict on what has been read. -/
theorem runs_execute_verdict (hlength : command.length ≤ dataBufferSize)
    (hio : result ≠ .error .io) (hresponsive : ¬ link.Unresponsive trace)
    (h : (link.execute command maxResponse).Runs trace result) :
    ∃ front values answer,
      trace = front ++ (reading link.data values ++ [link.exitWrite answer]) ∧
      (∀ index < values.length, link.InData (link.data + index)) ∧
      link.received trace = lowBytes values ∧
      values.length = Response.demand (lowBytes values) (min maxResponse dataBufferSize) ∧
      result = Response.verdict (lowBytes values) (min maxResponse dataBufferSize) := by
  have hbusy := mt (busy_iff_unresponsive hlength h).mp hresponsive
  obtain ⟨middle, answer, rfl, hsession⟩ := (runs_execute_iff hlength).mp h
  obtain ⟨front, values, rfl, hfront, hdemand, hverdict⟩ :=
    runs_session_verdict hlength hbusy hio hsession
  have hcount : values.length ≤ dataBufferSize := by
    refine hdemand ▸ Response.demand_le.trans (max_le ?_ (Nat.min_le_right _ _))
    decide
  have hdata : ∀ index < values.length, link.InData (link.data + index) := by
    intro index hindex
    have haddr : link.data = link.base + 0x80 := rfl
    have hsize : dataBufferSize = 0xF80 := rfl
    exact ⟨by omega, by omega⟩
  have hexit : Trace.Never link.IsDataRead [link.exitWrite answer] :=
    never_cons.mpr ⟨id, never_nil⟩
  refine ⟨front, values, answer, by simp, hdata, ?_, hdemand, hverdict⟩
  rw [received, received_append, received_append, received_eq_nil hfront, received_eq_nil hexit,
    List.nil_append, List.append_nil]
  exact received_reading hdata

theorem failsWith_execute :
    (link.execute command maxResponse).FailsWith
      [.deviceBusy, .io, .notSupported, .bufferTooSmall, .invalidParameter] := by
  intro trace failure h
  by_cases hlength : command.length ≤ dataBufferSize
  · obtain ⟨middle, answer, -, hsession⟩ := (runs_execute_iff hlength).mp h
    exact failsWith_session.mono (by simp) _ _ hsession
  · cases ((runs_execute_tooLong_iff (Nat.lt_of_not_le hlength)).mp h).2
    simp

end CommandBuffer

end TpmLink
