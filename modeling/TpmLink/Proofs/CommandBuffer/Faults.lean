import TpmLink.Proofs.Bus.Answers
import TpmLink.Proofs.CommandBuffer.Outcome

/-!
# Faults in a command on the command buffer

The first fault ends the session with `io`. One access may still follow: where the chip was waited
for behind a cancel, the cancel register is cleared before the session ends. A fault while the chip
is sent to idle counts as none, for that is done as well as it can be.
-/

namespace TpmLink

namespace CommandBuffer

open Script Trace

variable (link : CommandBuffer)

/-- An access that was not made, unless it was to send the chip to idle. -/
def IsFault (event : Event) : Prop := event.Failed ∧ ¬ link.IsGoIdle event

/-- A read of the start register behind a write that set the cancel register. -/
def AwaitsCancel (before : Trace) (event : Event) : Prop :=
  event.ReadsFrom (fun addr => addr = BufferRegister.start.addr link.base) ∧
    link.cancelWrite 1 (.ok ()) ∈ before

/-- What a session still does behind its first fault. -/
def Aftermath (before : Trace) (event : Event) (after : Trace) : Prop :=
  (link.AwaitsCancel before event ∧ ∃ answer, after = [link.cancelWrite 0 answer]) ∨
    (¬ link.AwaitsCancel before event ∧ after = [])

/-- There is a fault, and little comes behind the first one. -/
def Halts (trace : Trace) : Prop :=
  ∃ before event after, trace = before ++ event :: after ∧ link.IsFault event ∧
    before.Never link.IsFault ∧ link.Aftermath before event after

variable {link} {register : BufferRegister} {value set clear : UInt32} {timeout : Nat}
  {trace front back : Trace} {event : Event}

/-! ### Phases without a cancel -/

theorem not_isGoIdle_register (h : register.offset ≠ BufferRegister.request.offset) (width : Width)
    (raw : UInt64) (answer : Except BusFault Unit) :
    ¬ link.IsGoIdle (.write (register.addr link.base) width raw answer) :=
  fun hidle => h (addr_inj.mp hidle.1)

theorem strict_readReg : (link.readReg register).Strict link.IsFault :=
  strict_checked_read fun _ => and_iff_left id

theorem strict_writeReg
    (h : ∀ answer,
      ¬ link.IsGoIdle (.write (register.addr link.base) .dword value.toUInt64 answer)) :
    (link.writeReg register value).Strict link.IsFault :=
  strict_checked_write fun answer => and_iff_left (h answer)

theorem strict_waitReg : (link.waitReg register set clear timeout).Strict link.IsFault :=
  strict_waitBits _ strict_readReg (fun h => h.1) set clear timeout

theorem strict_handshake : link.handshake.Strict link.IsFault := by
  have hidle : link.ensureIdle.Strict link.IsFault := by
    unfold ensureIdle
    split
    · exact strict_pure _
    · refine strict_readReg.bind fun status => ?_
      dsimp only
      split
      · exact strict_pure _
      · exact (strict_note _).bind fun _ => strict_waitReg
  have hrequest : link.requestReady.Strict link.IsFault :=
    (strict_writeReg fun _ hgoIdle => absurd hgoIdle.2.2 (by decide)).bind fun _ => strict_waitReg
  exact hidle.bind fun _ => hrequest.bind fun _ => strict_waitReg

/-- Sending the chip to idle never fails. -/
theorem strict_rewind {attempt : Nat} : (link.rewind attempt).Strict link.IsFault := by
  refine strict_of_only (fun trace result h => ?_) fun trace h => ?_
  · obtain ⟨answer, rfl, -⟩ := runs_rewind_iff.mp h
    exact List.forall_mem_singleton.mpr fun hfault => hfault.2 ⟨rfl, rfl, rfl⟩
  · obtain ⟨answer, -, hresult⟩ := runs_rewind_iff.mp h
    cases hresult

theorem strict_makeReady : link.makeReady.Strict link.IsFault := by
  have hretry : ∀ number left, (retryFrom (fun attempt _ => link.rewind attempt)
      (fun _ => link.handshake) number left).Strict link.IsFault := by
    intro number left
    induction left generalizing number with
    | zero => exact strict_handshake
    | succ left ih => exact strict_handshake.onTimeout (strict_rewind.bind fun _ => ih (number + 1))
  exact (hretry _ _).onTimeout ((strict_note _).bind fun _ => strict_throw (by decide))

theorem strict_writeCommand {command : Bytes} :
    (link.writeCommand command).Strict link.IsFault := by
  have hwidth : ∀ addr width raw answer, width ≠ .dword →
      ¬ link.IsGoIdle (.write addr width raw answer) :=
    fun addr width raw answer h hidle => h hidle.2.1
  have hbytes : ∀ bytes addr, (writeBytes addr bytes).Strict link.IsFault := by
    intro bytes
    induction bytes with
    | nil => exact fun _ => strict_pure _
    | cons byte rest ih =>
      exact fun addr => (strict_checked_write fun _ =>
        and_iff_left (hwidth _ _ _ _ (by decide))).bind fun _ => ih _
  refine (hbytes _ _).bind fun _ => ?_
  refine (strict_writeReg (not_isGoIdle_register (by decide) _ _)).bind fun _ => ?_
  refine (strict_writeReg (not_isGoIdle_register (by decide) _ _)).bind fun _ => ?_
  refine (strict_writeReg (not_isGoIdle_register (by decide) _ _)).bind fun _ => ?_
  refine Strict.bind ?_ fun _ => strict_writeReg (not_isGoIdle_register (by decide) _ _)
  exact strict_checked_write fun _ => and_iff_left (hwidth _ _ _ _ (by decide))

theorem strict_awaitDone : (link.awaitDone timeout).Strict link.IsFault := strict_waitReg

theorem strict_readResponse {capacity : Nat} :
    (link.readResponse capacity).Strict link.IsFault := by
  have hbytes : ∀ count addr soFar, (readBytes addr count soFar).Strict link.IsFault := by
    intro count
    induction count with
    | zero => exact fun _ _ => strict_pure _
    | succ count ih =>
      exact fun _ _ => (strict_checked_read fun _ => and_iff_left id).bind fun _ => ih _ _
  refine (hbytes _ _ _).bind fun header => strict_acceptResponse.bind fun size => ?_
  split
  · exact strict_pure _
  · exact hbytes _ _ _

/-! ### Halting -/

section
variable {α : Type} {result : Except Failure α}

/-- The result is `io` just where there is a fault, and then little comes behind the first one. -/
def Settled (link : CommandBuffer) (trace : Trace) (result : Except Failure α) : Prop :=
  (result = .error .io ∧ link.Halts trace) ∨ (result ≠ .error .io ∧ trace.Never link.IsFault)

theorem awaitsCancel_append (h : link.cancelWrite 1 (.ok ()) ∉ front) :
    link.AwaitsCancel (front ++ back) event ↔ link.AwaitsCancel back event := by
  rw [AwaitsCancel, AwaitsCancel, List.mem_append, or_iff_right h]

/-- A part without a fault and without a cancel changes nothing in front. -/
theorem Settled.append_left (hfront : front.Never link.IsFault)
    (hcancel : link.cancelWrite 1 (.ok ()) ∉ front) (h : link.Settled back result) :
    link.Settled (front ++ back) result := by
  rcases h with ⟨hio, before, event, after, rfl, hfault, hbefore, hafter⟩ | ⟨hio, hback⟩
  · refine .inl ⟨hio, front ++ before, event, after, by simp, hfault,
      never_append.mpr ⟨hfront, hbefore⟩, ?_⟩
    rwa [Aftermath, awaitsCancel_append hcancel]
  · exact .inr ⟨hio, never_append.mpr ⟨hfront, hback⟩⟩

/-- A fault outside the wait behind a cancel is the last access. -/
theorem settled_of_last (hfault : link.IsFault event) (hfront : front.Never link.IsFault)
    (hwaits : ¬ link.AwaitsCancel front event) :
    link.Settled (front ++ [event]) (.error .io : Except Failure α) :=
  .inl ⟨rfl, front, event, [], rfl, hfault, hfront, .inr ⟨hwaits, rfl⟩⟩

/-- A strict script that never sets the cancel register. -/
theorem settled_of_strict {script : Script α} (hstrict : script.Strict link.IsFault)
    (hcancel : link.cancelWrite 1 (.ok ()) ∉ trace) (h : script.Runs trace result) :
    link.Settled trace result := by
  rcases hstrict trace result h with ⟨rfl, front, last, rfl, hlast, hfront⟩ | hnever
  · exact settled_of_last hlast hfront fun hawaits =>
      hcancel (List.mem_append.mpr (.inl hawaits.2))
  · exact .inr hnever

/-- What is settled for a failure does not depend on the kind of the values. -/
theorem Settled.of_failure {β : Type} {failure : Failure}
    (h : link.Settled trace (.error failure : Except Failure α)) :
    link.Settled trace (.error failure : Except Failure β) := by
  simpa [Settled] using h

end

/-! ### Execution -/

variable {result : Except Failure Unit}

theorem isFault_write (h : register.offset ≠ BufferRegister.request.offset) (raw : UInt64)
    (fault : BusFault) :
    link.IsFault (.write (register.addr link.base) .dword raw (.error fault)) :=
  ⟨trivial, not_isGoIdle_register h _ _ _⟩

theorem not_isFault_of_ok {addr : Nat} {width : Width} {raw : UInt64} :
    ¬ link.IsFault (.write addr width raw (.ok ())) :=
  fun h => h.1

theorem not_awaitsCancel_write {addr : Nat} {width : Width} {raw : UInt64}
    {answer : Except BusFault Unit} : ¬ link.AwaitsCancel front (.write addr width raw answer) :=
  fun h => h.1

/-- Polling the start register never writes. -/
theorem cancelWrite_not_mem_polls {found : Except Failure Unit}
    (h : (link.awaitDone timeout).Runs trace found) : link.cancelWrite 1 (.ok ()) ∉ trace :=
  only_awaitDone _ _ h _

/-- A fault while the start register is polled is at a read of it. -/
theorem readsStart_of_fault {found : Except Failure Unit}
    (h : (link.awaitDone timeout).Runs trace found) (hmem : event ∈ trace)
    (hfault : link.IsFault event) :
    event.ReadsFrom fun addr => addr = BufferRegister.start.addr link.base := by
  have hwithin := only_awaitDone _ _ h event hmem
  cases event with
  | read => exact hwithin
  | write => exact absurd hwithin id
  | stall => exact absurd hfault.1 id

/-- Behind a cancel the cancel register is cleared, even where the wait stopped at a fault. -/
theorem settled_cancel (h : link.cancel.Runs trace result) : link.Settled trace result := by
  rcases runs_cancel_iff.mp h with ⟨fault, rfl, rfl⟩ | ⟨rest, rfl, polls, acknowledged, hwait,
    hclear⟩
  · exact settled_of_last (isFault_write (by decide) _ _) never_nil not_awaitsCancel_write
  rcases strict_awaitDone polls acknowledged hwait with ⟨rfl, before, last, rfl, hlast, hbefore⟩ |
    ⟨hacknowledged, hpolls⟩
  · have hend : ∃ answer, result = .error .io ∧
        rest = before ++ [last] ++ [link.cancelWrite 0 answer] := by
      rcases hclear with ⟨fault, rfl, rfl⟩ | ⟨rfl, rfl⟩
      · exact ⟨_, rfl, rfl⟩
      · exact ⟨_, rfl, rfl⟩
    obtain ⟨answer, rfl, rfl⟩ := hend
    have hread := readsStart_of_fault hwait (by simp) hlast
    exact .inl ⟨rfl, link.cancelWrite 1 (.ok ()) :: before, last, _, by simp, hlast,
      never_cons.mpr ⟨not_isFault_of_ok, hbefore⟩, .inl ⟨⟨hread, by simp⟩, answer, rfl⟩⟩
  · have hfront : Trace.Never link.IsFault (link.cancelWrite 1 (.ok ()) :: polls) :=
      never_cons.mpr ⟨not_isFault_of_ok, hpolls⟩
    rcases hclear with ⟨fault, rfl, rfl⟩ | ⟨rfl, rfl⟩
    · exact settled_of_last (isFault_write (by decide) _ _) hfront not_awaitsCancel_write
    · have hresult : escalate acknowledged ≠ .error .io := by
        rcases acknowledged with failure | ⟨⟩
        · cases failure with
          | io => exact absurd rfl hacknowledged
          | _ => simp [escalate]
        · simp [escalate]
      exact .inr ⟨hresult, never_append.mpr
        ⟨hfront, never_cons.mpr ⟨not_isFault_of_ok, never_nil⟩⟩⟩

theorem settled_start (h : link.start.Runs trace result) : link.Settled trace result := by
  rcases runs_checked_write_bind_iff.mp h with ⟨fault, rfl, rfl⟩ | ⟨rest, rfl, hrest⟩
  · exact settled_of_last (isFault_write (by decide) _ _) never_nil not_awaitsCancel_write
  have hstart : Trace.Never link.IsFault [link.startWrite (.ok ())] :=
    never_cons.mpr ⟨not_isFault_of_ok, never_nil⟩
  have hcancel : link.cancelWrite 1 (.ok ()) ∉ [link.startWrite (.ok ())] := by
    rw [List.mem_singleton]
    intro heq
    exact absurd (addr_inj.mp (Event.write.inj heq).1) (by decide)
  refine Settled.append_left hstart hcancel ?_
  rcases runs_onTimeout_iff.mp hrest with ⟨-, hwait⟩ | ⟨polls, back, rfl, hpolls, hback⟩
  · exact settled_of_strict strict_awaitDone (cancelWrite_not_mem_polls hwait) hwait
  · exact (settled_cancel hback).append_left (strict_awaitDone.never hpolls (by simp))
      (cancelWrite_not_mem_polls hpolls)

/-! ### The whole -/

variable {command : Bytes} {capacity : Nat} {result : Except Failure Bytes}

/-- A fault while the response is read is the last access, even where there was a cancel. -/
theorem settled_execution (hcapacity : capacity ≤ dataBufferSize)
    (h : (link.start >>= fun _ => link.readResponse capacity).Runs trace result) :
    link.Settled trace result := by
  rcases runs_bind_iff.mp h with ⟨failure, rfl, hstart⟩ | ⟨front, back, ⟨⟩, rfl, hstart, hback⟩
  · exact (settled_start hstart).of_failure
  rcases settled_start hstart with ⟨hio, -⟩ | ⟨-, hfront⟩
  · cases hio
  rcases strict_readResponse back result hback with ⟨rfl, before, last, rfl, hlast, hbefore⟩ |
    ⟨hio, hnever⟩
  · -- The cancel register may have been set, but it is the data buffer that is read now.
    rw [← List.append_assoc]
    refine settled_of_last hlast (never_append.mpr ⟨hfront, hbefore⟩) fun hawaits => ?_
    refine (only_readResponse hcapacity _ _ hback last (by simp)).not_readsFrom ?_ hawaits.1
    rintro _ hdata rfl
    exact not_inData_register (by decide) hdata
  · exact .inr ⟨hio, never_append.mpr ⟨hfront, hnever⟩⟩

/-- A strict first part that never sets the cancel register. -/
theorem settled_bind {α β : Type} {script : Script α} {next : α → Script β}
    {result : Except Failure β} (hstrict : script.Strict link.IsFault)
    (hcancel : script.Only fun event => event ≠ link.cancelWrite 1 (.ok ()))
    (hnext : ∀ value trace, (next value).Runs trace result → link.Settled trace result)
    (h : (script >>= next).Runs trace result) : link.Settled trace result := by
  rcases runs_bind_iff.mp h with ⟨failure, rfl, hscript⟩ | ⟨front, back, value, rfl, hscript, hback⟩
  · have hsettled := settled_of_strict hstrict (fun hmem => hcancel _ _ hscript _ hmem rfl) hscript
    exact hsettled.of_failure
  · exact (hnext value back hback).append_left (hstrict.never hscript (by simp))
      fun hmem => hcancel _ _ hscript _ hmem rfl

/-- The first fault ends a session, but for the cancel register being cleared. -/
theorem settled_session (hlength : command.length ≤ dataBufferSize)
    (hcapacity : capacity ≤ dataBufferSize)
    (h : (link.session command capacity).Runs trace result) : link.Settled trace result := by
  have hready : link.makeReady.Only fun event => event ≠ link.cancelWrite 1 (.ok ()) := by
    refine only_makeReady.mono ?_
    rintro _ hevent rfl
    exact absurd (addr_inj.mp hevent) (by decide)
  have hload : (link.writeCommand command).Only
      fun event => event ≠ link.cancelWrite 1 (.ok ()) := by
    refine (only_writeCommand hlength).mono ?_
    rintro _ hevent rfl
    exact not_inLoad_register (by decide) hevent
  refine settled_bind strict_makeReady hready (fun _ trace hrest => ?_) h
  refine settled_bind strict_writeCommand hload (fun _ trace hrun => ?_)
    (runs_note_bind_iff.mp hrest)
  exact settled_execution hcapacity hrun

/-- A command fails with `io` just where it meets a fault, and behind the first fault there is
nothing but the way back to idle; where the chip was waited for behind a cancel, the cancel register
is cleared before that. -/
structure StopsAtFault (link : CommandBuffer) (trace : Trace) (result : Except Failure Bytes) :
    Prop where
  io : result = .error .io ↔ ∃ event ∈ trace, link.IsFault event
  rest : ∀ before event after, trace = before ++ event :: after → link.IsFault event →
    before.Never link.IsFault →
      (link.AwaitsCancel before event ∧
        ∃ cleared left, after = [link.cancelWrite 0 cleared, link.exitWrite left]) ∨
      (¬ link.AwaitsCancel before event ∧ ∃ left, after = [link.exitWrite left])

theorem not_isFault_exitWrite (answer : Except BusFault Unit) :
    ¬ link.IsFault (link.exitWrite answer) :=
  fun h => h.2 ⟨rfl, rfl, rfl⟩

/-- The exit is never a fault, so what is settled for a session is settled for the command. -/
theorem Settled.stopsAtFault (answer : Except BusFault Unit) (h : link.Settled trace result) :
    link.StopsAtFault (trace ++ [link.exitWrite answer]) result where
  io := by
    rcases h with ⟨hio, before, event, after, rfl, hfault, -⟩ | ⟨hio, hnever⟩
    · exact iff_of_true hio ⟨event, by simp, hfault⟩
    · refine iff_of_false hio ?_
      rintro ⟨event, hmem, hfault⟩
      rcases List.mem_append.mp hmem with hmem | hmem
      · exact hnever event hmem hfault
      · rw [List.mem_singleton.mp hmem] at hfault
        exact not_isFault_exitWrite answer hfault
  rest before event after heq hfault hbefore := by
    rcases append_eq_append_cons heq with ⟨rest, rfl, rfl⟩ | ⟨front, rfl, hexit⟩
    · rcases h with ⟨-, before', event', after', heq', hfault', hbefore', hafter'⟩ | ⟨-, hnever⟩
      · obtain ⟨rfl, rfl, rfl⟩ := hbefore.first_unique hbefore' hfault hfault' heq'
        rcases hafter' with ⟨hawaits, cleared, rfl⟩ | ⟨hfree, rfl⟩
        · exact .inl ⟨hawaits, cleared, answer, rfl⟩
        · exact .inr ⟨hfree, answer, rfl⟩
      · exact absurd hfault (hnever event (by simp))
    · rcases List.singleton_eq_append_iff.mp hexit with ⟨rfl, hevent⟩ | ⟨rfl, hnone⟩
      · obtain ⟨rfl, -⟩ := List.cons.inj hevent
        exact absurd hfault (not_isFault_exitWrite answer)
      · cases hnone

theorem runs_execute_stopsAtFault {maxResponse : Nat}
    (h : (link.execute command maxResponse).Runs trace result) :
    link.StopsAtFault trace result := by
  by_cases hlength : command.length ≤ dataBufferSize
  · obtain ⟨middle, answer, rfl, hsession⟩ := (runs_execute_iff hlength).mp h
    exact (settled_session hlength (Nat.min_le_right _ _) hsession).stopsAtFault answer
  · obtain ⟨rfl, rfl⟩ := (runs_execute_tooLong_iff (Nat.lt_of_not_le hlength)).mp h
    exact ⟨by simp, by simp⟩

theorem ne_io_iff_faultless {maxResponse : Nat}
    (h : (link.execute command maxResponse).Runs trace result) :
    result ≠ .error .io ↔ trace.Never link.IsFault := by
  rw [ne_eq, (runs_execute_stopsAtFault h).io]
  simp only [not_exists, not_and]
  rfl

end CommandBuffer

end TpmLink
