import TpmLink.Proofs.Bus.Answers
import TpmLink.Proofs.Fifo.Delivery
import TpmLink.Proofs.Fifo.Receiving

/-!
# What a command on the byte FIFO comes to

The trace decides the result. There are four ways to give the chip up, and one in which it wants
more bytes than the command has; each is a wait that spends its budget behind phases that ended
well. Otherwise, without a fault, the result is the verdict on the bytes that were received.
-/

namespace TpmLink

namespace Fifo

open Script Trace

variable (link : Fifo)

/-- Ready is seen and the whole command is sent. -/
def Delivered (command : Bytes) (trace : Trace) : Prop :=
  ∃ ready load left, trace = ready ++ load ∧ link.Readied ready ∧
    link.Paced 0 (link.sending command) load left

/-- The whole command is sent, and the chip is seen to expect no more. -/
def Taken (command : Bytes) (trace : Trace) : Prop :=
  ∃ front polls, trace = front ++ polls ∧ link.Delivered command front ∧
    link.Sees 0x80 0x08 link.timeouts.c polls

/-- The whole command is sent, and the chip is not seen to expect no more for the whole budget. -/
def Unsated (command : Bytes) (trace : Trace) : Prop :=
  ∃ front polls, trace = front ++ polls ∧ link.Delivered command front ∧
    link.Misses 0x80 0x08 link.timeouts.c polls

/-- The ways to give the chip up. -/
inductive GivesUp (link : Fifo) (command : Bytes) (capacity : Nat) : Trace → Prop
  /-- Ready is never seen. -/
  | neverReady {polls : Trace} (waits : link.Misses 0x40 0 link.timeouts.b polls) :
      GivesUp link command capacity (link.exitWrite (.ok ()) :: polls)
  /-- The chip takes some bytes of the command and then no more. -/
  | starvedSending {ready load polls : Trace} {sent rest : Bytes} (readied : link.Readied ready)
      (command_eq : command = sent ++ rest) (more : rest ≠ [])
      (paced : link.Paced 0 (link.sending sent) load 0) (starves : link.Starves polls) :
      GivesUp link command capacity (ready ++ (load ++ polls))
  /-- The response is not available in time, and not after the cancel either. -/
  | neverAnswered {taken polls polls' : Trace} (takes : link.Taken command taken)
      (waits : link.Misses 0x90 0 link.timeouts.max polls)
      (ignores : link.Misses 0x90 0 link.timeouts.b polls') :
      GivesUp link command capacity (taken ++
        link.startWrite (.ok ()) :: (polls ++ link.cancelWrite (.ok ()) :: polls'))
  /-- The chip gives some bytes of the response and then no more. -/
  | starvedReceiving {taken run load polls : Trace} {values : List UInt64}
      (takes : link.Taken command taken) (answers : link.Answered run)
      (more : values.length < Response.demand (lowBytes values) capacity)
      (paced : link.Paced 0 (link.receiving values) load 0) (starves : link.Starves polls) :
      GivesUp link command capacity (taken ++ (run ++ (load ++ polls)))

variable {link} {command : Bytes} {capacity : Nat} {trace : Trace} {result : Except Failure Bytes}

/-- Behind a command that has been taken, the session goes on with the start. -/
theorem runs_session_of_taken {front back : Trace} (htaken : link.Taken command front)
    (hrun : (link.start >>= fun _ => link.receive capacity).Runs back result) :
    (link.session command capacity).Runs (front ++ back) result := by
  obtain ⟨_, polls, rfl, ⟨ready, load, left, rfl, hready, hload⟩, hpolls⟩ := htaken
  have hsend := runs_send_ok_iff.mpr ⟨load, polls, left, rfl, hload, hpolls⟩
  refine runs_bind_iff.mpr (.inr ⟨ready, load ++ polls ++ back, (), by simp,
    runs_prepare_ok_iff.mpr hready, runs_note_bind_iff.mpr ?_⟩)
  exact runs_bind_iff.mpr (.inr ⟨load ++ polls, back, (), rfl, hsend, hrun⟩)

theorem runs_session_busy_iff :
    (link.session command capacity).Runs trace (.error .deviceBusy) ↔
      link.GivesUp command capacity trace := by
  constructor
  · intro h
    rcases runs_bind_error_iff.mp h with hready | ⟨ready, rest, ⟨⟩, rfl, hready, hrest⟩
    · obtain ⟨polls, rfl, hpolls⟩ := runs_prepare_busy_iff.mp hready
      exact .neverReady hpolls
    have hreadied := runs_prepare_ok_iff.mp hready
    rcases runs_bind_error_iff.mp (runs_note_bind_iff.mp hrest) with hload | ⟨load, run, ⟨⟩, rfl,
      hload, hrun⟩
    · obtain ⟨sent, left, load, polls, hcommand, hleft, rfl, hpaced, hstarves⟩ :=
        runs_sendBytes_busy_iff.mp (runs_send_busy_iff.mp hload)
      exact .starvedSending hreadied hcommand hleft hpaced hstarves
    obtain ⟨load, polls, left, rfl, hpaced, hpolls⟩ := runs_send_ok_iff.mp hload
    have htaken : link.Taken command (ready ++ (load ++ polls)) :=
      ⟨ready ++ load, polls, by simp, ⟨ready, load, left, rfl, hreadied, hpaced⟩, hpolls⟩
    rw [← List.append_assoc]
    rcases runs_bind_error_iff.mp hrun with hstart | ⟨start, response, ⟨⟩, rfl, hstart, hresponse⟩
    · obtain ⟨polls, polls', rfl, hpolls, hpolls'⟩ := runs_start_busy_iff.mp hstart
      exact .neverAnswered htaken hpolls hpolls'
    · obtain ⟨values, load, polls, rfl, hmore, hload, hstarves⟩ :=
        runs_receive_busy_iff.mp hresponse
      exact .starvedReceiving htaken (runs_start_ok_iff.mp hstart) hmore hload hstarves
  · intro h
    cases h with
    | neverReady hwaits =>
      exact runs_bind_error_iff.mpr (.inl (runs_prepare_busy_iff.mpr ⟨_, rfl, hwaits⟩))
    | starvedSending hreadied hcommand hmore hpaced hstarves =>
      have hsend := runs_send_busy_iff.mpr (runs_sendBytes_busy_iff.mpr
        ⟨_, _, _, _, hcommand, hmore, rfl, hpaced, hstarves⟩)
      exact runs_bind_error_iff.mpr (.inr ⟨_, _, (), rfl, runs_prepare_ok_iff.mpr hreadied,
        runs_note_bind_iff.mpr (runs_bind_error_iff.mpr (.inl hsend))⟩)
    | neverAnswered htaken hwaits hignores =>
      have hstart := runs_start_busy_iff.mpr ⟨_, _, rfl, hwaits, hignores⟩
      exact runs_session_of_taken htaken (runs_bind_error_iff.mpr (.inl hstart))
    | starvedReceiving htaken hanswers hmore hpaced hstarves =>
      have hreceive := runs_receive_busy_iff.mpr ⟨_, _, _, rfl, hmore, hpaced, hstarves⟩
      exact runs_session_of_taken htaken
        (runs_bind_error_iff.mpr (.inr ⟨_, _, (), rfl, runs_start_ok_iff.mpr hanswers, hreceive⟩))

/-- A chip that expects more ends the session. -/
theorem runs_session_of_unsated (h : link.Unsated command trace) :
    (link.session command capacity).Runs trace (.error .bufferTooSmall) := by
  obtain ⟨_, polls, rfl, ⟨ready, load, left, rfl, hready, hload⟩, hpolls⟩ := h
  have hsend := runs_send_tooSmall_iff.mpr ⟨load, polls, left, rfl, hload, hpolls⟩
  exact runs_bind_error_iff.mpr (.inr ⟨ready, load ++ polls, (), by simp,
    runs_prepare_ok_iff.mpr hready, runs_note_bind_iff.mpr (runs_bind_error_iff.mpr (.inl hsend))⟩)

/-- Nothing is received before the response. -/
theorem received_of_phases {ready load start response : Trace}
    {readied sent started : Except Failure Unit} (hready : link.prepare.Runs ready readied)
    (hload : (link.send command).Runs load sent) (hstart : link.start.Runs start started) :
    link.received (ready ++ (load ++ (start ++ response))) = link.received response := by
  obtain ⟨answer, polls, rfl, hpolls⟩ := runs_start hstart
  have hready' : ready.Never link.IsReceive :=
    never_readsFrom (runs_prepare hready).1.confined fun _ => IsSource.ne_data
  have hload' : load.Never link.IsReceive :=
    never_readsFrom (only_send _ _ hload) fun _ => IsSource.ne_data
  have hstart' : Trace.Never link.IsReceive (.write link.status .byte 0x20 answer :: polls) :=
    hpolls.never_isReceive answer
  rw [received, received_append, received_append, received_append, received_eq_nil hready',
    received_eq_nil hload', received_eq_nil hstart']
  rfl

/-- A session without a fault on a chip that is not given up ends with the chip expecting more, or
receives the response last. -/
theorem runs_session_verdict (hbusy : result ≠ .error .deviceBusy) (hio : result ≠ .error .io)
    (h : (link.session command capacity).Runs trace result) :
    (link.Unsated command trace ∧ result = .error .bufferTooSmall) ∨
      ((link.received trace).length = Response.demand (link.received trace) capacity ∧
        result = Response.verdict (link.received trace) capacity) := by
  have hneither : ∀ failure, result = .error failure → failure ∉ [Failure.deviceBusy, .io] :=
    fun _ => not_mem_of_ne hbusy hio
  rcases runs_bind_iff.mp h with ⟨failure, hresult, hready⟩ | ⟨ready, rest, ⟨⟩, rfl, hready, hrest⟩
  · exact absurd (failsWith_prepare _ _ hready) (hneither _ hresult)
  rcases runs_bind_iff.mp (runs_note_bind_iff.mp hrest) with ⟨failure, rfl, hload⟩ | ⟨load, run,
    ⟨⟩, rfl, hload, hrun⟩
  · left
    have hfailure : failure = .bufferTooSmall := by
      have hall := failsWith_send _ _ hload
      have hnone := hneither _ rfl
      simp only [List.mem_cons, List.not_mem_nil, or_false, not_or] at hall hnone
      exact (hall.resolve_left hnone.1).resolve_right hnone.2
    subst hfailure
    obtain ⟨load, polls, left, rfl, hpaced, hpolls⟩ := runs_send_tooSmall_iff.mp hload
    exact ⟨⟨ready ++ load, polls, by simp,
      ⟨ready, load, left, rfl, runs_prepare_ok_iff.mp hready, hpaced⟩, hpolls⟩, rfl⟩
  rcases runs_bind_iff.mp hrun with ⟨failure, hresult, hstart⟩ | ⟨start, response, ⟨⟩, rfl, hstart,
    hresponse⟩
  · exact absurd (failsWith_start _ _ hstart) (hneither _ hresult)
  obtain ⟨values, left, hpaced, hdemand, hverdict⟩ := runs_receive_verdict hbusy hio hresponse
  have hreceived : link.received (ready ++ (load ++ (start ++ response))) = lowBytes values := by
    rw [received_of_phases hready hload hstart, hpaced.received_eq, received_receiving]
  rw [hreceived, length_lowBytes]
  exact .inr ⟨hdemand, hverdict⟩

theorem failsWith_session :
    (link.session command capacity).FailsWith
      [.deviceBusy, .io, .notSupported, .bufferTooSmall] := by
  refine (failsWith_prepare.mono (by simp)).bind fun _ => (failsWith_note _).bind fun _ => ?_
  refine (failsWith_send.mono (by simp)).bind fun _ => ?_
  exact (failsWith_start.mono (by simp)).bind fun _ => failsWith_receive

/-! ### The whole -/

/-- The chip is returned to ready, whatever it answers. -/
theorem runs_exit_iff {result : Except Failure Unit} :
    link.exit.Runs trace result ↔ ∃ answer, trace = [link.exitWrite answer] ∧ result = .ok () := by
  refine runs_noted_write_iff fun answer rest found => ?_
  cases answer with
  | ok value => exact runs_pure_iff
  | error fault => exact runs_note_iff

/-- A command is a session, and then the return to ready. -/
theorem runs_execute_iff :
    (link.execute command capacity).Runs trace result ↔
      ∃ middle answer, trace = middle ++ [link.exitWrite answer] ∧
        (link.session command capacity).Runs middle result :=
  runs_ensuring_write_iff fun _ _ => runs_exit_iff

/-- The chip is given up, and returned to ready. -/
def Unresponsive (link : Fifo) (command : Bytes) (capacity : Nat) (trace : Trace) : Prop :=
  ∃ middle answer, trace = middle ++ [link.exitWrite answer] ∧ link.GivesUp command capacity middle

/-- The chip wants more bytes than the command has, and is returned to ready. -/
def ExpectsMore (link : Fifo) (command : Bytes) (trace : Trace) : Prop :=
  ∃ middle answer, trace = middle ++ [link.exitWrite answer] ∧ link.Unsated command middle

/-- The chip counts as busy exactly where it is given up. -/
theorem busy_iff_unresponsive (h : (link.execute command capacity).Runs trace result) :
    result = .error .deviceBusy ↔ link.Unresponsive command capacity trace := by
  obtain ⟨middle, answer, rfl, hsession⟩ := runs_execute_iff.mp h
  constructor
  · rintro rfl
    exact ⟨middle, answer, rfl, runs_session_busy_iff.mp hsession⟩
  · rintro ⟨middle', answer', heq, hgivesUp⟩
    obtain ⟨rfl, -⟩ := List.append_inj' heq rfl
    exact hsession.result_unique (runs_session_busy_iff.mpr hgivesUp)

theorem tooSmall_of_expectsMore (h : (link.execute command capacity).Runs trace result)
    (hexpects : link.ExpectsMore command trace) : result = .error .bufferTooSmall := by
  obtain ⟨middle, answer, rfl, hsession⟩ := runs_execute_iff.mp h
  obtain ⟨middle', answer', heq, hunsated⟩ := hexpects
  obtain ⟨rfl, -⟩ := List.append_inj' heq rfl
  exact hsession.result_unique (runs_session_of_unsated hunsated)

/-- Without a fault a chip that is not given up and takes the command has as much received from it
as the header asks for, and the result is the verdict on what has been received. -/
theorem runs_execute_verdict (hio : result ≠ .error .io)
    (hresponsive : ¬ link.Unresponsive command capacity trace)
    (hsated : ¬ link.ExpectsMore command trace)
    (h : (link.execute command capacity).Runs trace result) :
    (link.received trace).length = Response.demand (link.received trace) capacity ∧
      result = Response.verdict (link.received trace) capacity := by
  have hbusy := mt (busy_iff_unresponsive h).mp hresponsive
  obtain ⟨middle, answer, rfl, hsession⟩ := runs_execute_iff.mp h
  have hexit : Trace.Never link.IsReceive [link.exitWrite answer] :=
    never_cons.mpr ⟨id, never_nil⟩
  have hreceived : link.received (middle ++ [link.exitWrite answer]) = link.received middle := by
    rw [received, received_append, received_eq_nil hexit, List.append_nil]
    rfl
  rw [hreceived]
  refine (runs_session_verdict hbusy hio hsession).resolve_left ?_
  rintro ⟨hunsated, -⟩
  exact hsated ⟨middle, answer, rfl, hunsated⟩

theorem failsWith_execute :
    (link.execute command capacity).FailsWith
      [.deviceBusy, .io, .notSupported, .bufferTooSmall] := by
  intro trace failure h
  obtain ⟨middle, answer, -, hsession⟩ := runs_execute_iff.mp h
  exact failsWith_session _ _ hsession

end Fifo

end TpmLink
