import TpmLink.Proofs.Bus.Answers
import TpmLink.Proofs.Bus.Faults
import TpmLink.Proofs.Fifo.Outcome

/-!
# How a command on the byte FIFO ends

It ends as it began, with the write that asks for the ready state, and this write is made at no
other time. A fault of any other access ends the session at once with `io`.
-/

namespace TpmLink

namespace Fifo

open Script Trace

variable (link : Fifo)

/-- A write that asks for the ready state. -/
def IsReadyWrite : Event → Prop
  | .write addr width value _ => addr = link.status ∧ width = .byte ∧ value = 0x40
  | _ => False

instance : DecidablePred link.IsReadyWrite
  | .write addr width value _ =>
    inferInstanceAs (Decidable (addr = link.status ∧ width = .byte ∧ value = 0x40))
  | .read .. | .stall _ => isFalse id

variable {link} {set clear : UInt8} {timeout budget capacity : Nat} {command : Bytes}
  {trace : Trace}

/-! ### Faults -/

theorem strict_writeStatus {bits : UInt8} : (link.writeStatus bits).Strict Event.Failed :=
  strict_checked_write fun _ => Iff.rfl

theorem strict_waitStatus : (link.waitStatus set clear timeout).Strict Event.Failed :=
  strict_waitBits _ ((strict_checked_read fun _ => Iff.rfl).bind fun _ => strict_pure _) id _ _
    timeout

/-- A wait whose time-out is turned into another failure. -/
theorem strict_onTimeout_throw {α : Type} {script : Script α} {notice : Notice} {failure : Failure}
    (hscript : script.Strict Event.Failed) (hfailure : failure ≠ .io) :
    (onTimeout script (Journal.note notice >>= fun _ => throw failure)).Strict Event.Failed :=
  hscript.onTimeout ((strict_note _).bind fun _ => strict_throw hfailure)

theorem strict_refill : (link.refill budget).Strict Event.Failed := by
  have hburst : link.readBurst.Strict Event.Failed :=
    (strict_checked_read fun _ => Iff.rfl).bind fun _ =>
      (strict_checked_read fun _ => Iff.rfl).bind fun _ => strict_pure _
  unfold refill
  split
  · refine strict_onTimeout_throw (strict_await _ ?_ id _) (by decide)
    exact hburst.bind fun _ => (strict_note _).bind fun _ => strict_pure _
  · exact strict_pure _

theorem strict_sendBytes {bytes : Bytes} :
    (link.sendBytes bytes budget).Strict Event.Failed := by
  induction bytes generalizing budget with
  | nil => exact strict_pure _
  | cons byte rest ih =>
    exact strict_refill.bind fun _ => (strict_checked_write fun _ => Iff.rfl).bind fun _ => ih

theorem strict_start : link.start.Strict Event.Failed := by
  have hcancel : link.cancel.Strict Event.Failed :=
    (strict_note _).bind fun _ => (strict_checked_write fun _ => Iff.rfl).bind fun _ =>
      strict_onTimeout_throw strict_waitStatus (by decide)
  exact strict_writeStatus.bind fun _ => Strict.onTimeout strict_waitStatus hcancel

theorem strict_receiveBytes {count : Nat} {soFar : Bytes} :
    (link.receiveBytes count budget soFar).Strict Event.Failed := by
  induction count generalizing budget soFar with
  | zero => exact strict_pure _
  | succ count ih =>
    exact strict_refill.bind fun _ => (strict_checked_read fun _ => Iff.rfl).bind fun _ => ih

theorem strict_session : (link.session command capacity).Strict Event.Failed := by
  have hprepare : link.prepare.Strict Event.Failed :=
    strict_writeStatus.bind fun _ => strict_onTimeout_throw strict_waitStatus (by decide)
  have hsend : (link.send command).Strict Event.Failed :=
    strict_sendBytes.bind fun _ => strict_onTimeout_throw strict_waitStatus (by decide)
  refine hprepare.bind fun _ => (strict_note _).bind fun _ => hsend.bind fun _ =>
    strict_start.bind fun _ => strict_receiveBytes.bind fun _ =>
      strict_acceptResponse.bind fun _ => ?_
  split
  · exact strict_pure _
  · exact strict_receiveBytes.bind fun _ => strict_pure _

/-- A command fails with `io` just where an access before its exit was not made, and behind such an
access there is nothing but the exit. -/
def StopsAtFault (link : Fifo) (trace : Trace) (result : Except Failure Bytes) : Prop :=
  ∃ middle answer, trace = middle ++ [link.exitWrite answer] ∧
    (result = .error .io ↔ ∃ event ∈ middle, event.Failed) ∧
    ∀ before event after, middle = before ++ event :: after → event.Failed → after = []

theorem runs_execute_stopsAtFault {result : Except Failure Bytes}
    (h : (link.execute command capacity).Runs trace result) : link.StopsAtFault trace result := by
  obtain ⟨middle, answer, rfl, hsession⟩ := runs_execute_iff.mp h
  refine ⟨middle, answer, rfl, ?_⟩
  rcases strict_session middle result hsession with ⟨hio, front, last, rfl, hlast, hfront⟩ |
    ⟨hio, hnever⟩
  · refine ⟨iff_of_true hio ⟨last, by simp, hlast⟩, fun before event after heq hfailed => ?_⟩
    rcases append_eq_append_cons heq with ⟨rest, rfl, -⟩ | ⟨between, rfl, hend⟩
    · exact absurd hfailed (hfront event (by simp))
    · rcases List.singleton_eq_append_iff.mp hend with ⟨rfl, hevent⟩ | ⟨-, hnone⟩
      · exact (List.cons.inj hevent).2
      · cases hnone
  · refine ⟨iff_of_false hio fun ⟨event, hmem, hfailed⟩ => hnever event hmem hfailed, ?_⟩
    rintro before event after rfl hfailed
    exact absurd hfailed (hnever event (by simp))

theorem ne_io_iff_faultless {result : Except Failure Bytes}
    (h : (link.execute command capacity).Runs trace result) :
    result ≠ .error .io ↔ Trace.Never Event.Failed trace.dropLast := by
  obtain ⟨middle, answer, rfl, hio, -⟩ := runs_execute_stopsAtFault h
  rw [ne_eq, hio, List.dropLast_concat]
  simp only [not_exists, not_and]
  rfl

/-! ### Ready -/

theorem not_isReadyWrite_of_within {readable writable : Nat → Prop} {event : Event}
    (h : event.Within readable writable) (hwrites : ¬ writable link.status) :
    ¬ link.IsReadyWrite event := by
  cases event with
  | write =>
    rintro ⟨rfl, -⟩
    exact hwrites h
  | _ => exact id

theorem only_waitStatus_not_isReadyWrite :
    (link.waitStatus set clear timeout).Only fun event => ¬ link.IsReadyWrite event :=
  only_waitStatus.mono fun _ hwait => not_isReadyWrite_of_within hwait id

/-- Behind the first request ready is not asked for again. -/
theorem only_behindRequest :
    (link.send command >>= fun _ => link.start >>= fun _ => link.receive capacity).Only
      fun event => ¬ link.IsReadyWrite event := by
  have hdata : link.status ≠ link.data := IsSource.ne_data (.inl rfl)
  have hcancel : link.cancel.Only fun event => ¬ link.IsReadyWrite event := by
    refine only_bind (only_note _) fun _ => only_bind (only_checked_write fun _ hready => ?_)
      fun _ => only_onTimeout only_waitStatus_not_isReadyWrite
        (only_bind (only_note _) fun _ => only_throw _)
    exact absurd hready.2.1 (by decide)
  have hstart : link.start.Only fun event => ¬ link.IsReadyWrite event := by
    refine only_bind (only_checked_write fun _ hready => ?_) fun _ =>
      only_onTimeout only_waitStatus_not_isReadyWrite hcancel
    exact absurd hready.2.2 (by decide)
  refine only_bind (only_send.mono fun _ hevent => not_isReadyWrite_of_within hevent hdata)
    fun _ => only_bind hstart fun _ => ?_
  exact only_receive.mono fun _ hevent => not_isReadyWrite_of_within hevent id

/-- Ready is asked for first. -/
theorem runs_prepare_first {result : Except Failure Unit} (h : link.prepare.Runs trace result) :
    ∃ (answer : Except BusFault Unit) (polls : Trace),
      trace = link.exitWrite answer :: polls ∧ polls.Never link.IsReadyWrite := by
  obtain ⟨answer, polls, rfl, ⟨rfl, -⟩ | ⟨-, hpolls⟩⟩ := runs_checked_write_bind h
  · exact ⟨answer, [], rfl, never_nil⟩
  · exact ⟨answer, polls, rfl, only_onTimeout only_waitStatus_not_isReadyWrite
      (only_bind (only_note _) fun _ => only_throw _) _ _ hpolls⟩

theorem runs_session_first {result : Except Failure Bytes}
    (h : (link.session command capacity).Runs trace result) :
    ∃ (answer : Except BusFault Unit) (rest : Trace),
      trace = link.exitWrite answer :: rest ∧ rest.Never link.IsReadyWrite := by
  rcases runs_bind_iff.mp h with ⟨failure, -, hready⟩ | ⟨ready, back, ⟨⟩, rfl, hready, hback⟩
  · exact runs_prepare_first hready
  · obtain ⟨answer, polls, rfl, hpolls⟩ := runs_prepare_first hready
    have hrest := only_behindRequest _ _ (runs_note_bind_iff.mp hback)
    exact ⟨answer, polls ++ back, rfl, never_append.mpr ⟨hpolls, hrest⟩⟩

theorem countP_exitWrite (answer : Except BusFault Unit) :
    List.countP link.IsReadyWrite [link.exitWrite answer] = 1 := by
  have hready : link.IsReadyWrite (link.exitWrite answer) := ⟨rfl, rfl, rfl⟩
  rw [List.countP_singleton, if_pos (decide_eq_true hready)]

/-- A command asks for the ready state first and last and at no other time, and the answer to the
last time does not matter. -/
def CleansUp (link : Fifo) (command : Bytes) (capacity : Nat) (trace : Trace)
    (result : Except Failure Bytes) : Prop :=
  ∃ first middle last, trace = link.exitWrite first :: (middle ++ [link.exitWrite last]) ∧
    trace.countP link.IsReadyWrite = 2 ∧
    ∀ last' result', (link.execute command capacity).Runs
      (link.exitWrite first :: (middle ++ [link.exitWrite last'])) result' ↔ result' = result

theorem runs_execute_cleansUp {result : Except Failure Bytes}
    (h : (link.execute command capacity).Runs trace result) :
    link.CleansUp command capacity trace result := by
  obtain ⟨_, last, rfl, hsession⟩ := runs_execute_iff.mp h
  obtain ⟨first, middle, rfl, hmiddle⟩ := runs_session_first hsession
  have hnone : middle.countP link.IsReadyWrite = 0 :=
    List.countP_eq_zero.mpr fun event hmem => by simpa using hmiddle event hmem
  refine ⟨first, middle, last, rfl, ?_, runs_last_iff (fun _ _ => runs_execute_iff) hsession⟩
  rw [List.countP_append, ← List.singleton_append, List.countP_append, countP_exitWrite,
    countP_exitWrite, hnone]

end Fifo

end TpmLink
