import TpmLink.Proofs.CommandBuffer.Cancelling
import TpmLink.Proofs.CommandBuffer.Faults
import TpmLink.Proofs.CommandBuffer.Idling
import TpmLink.Proofs.Fifo.Cancelling
import TpmLink.Proofs.Fifo.Ending

/-!
# What every command keeps to

Four promises about both transports, on every device and from each of its states: a command cleans
up behind itself on every way out; it stops at a fault of the bus; it is cancelled only when its
time is up, and the cancel is followed through; and how it ends is settled by what its trace shows.
-/

namespace TpmLink

open Script Trace

section
variable {σ : Type} (device : Device σ) (state : σ) (buffer : CommandBuffer) (fifo : Fifo)
  (command : Bytes) (maxResponse : Nat)

/-- Every command returns the chip to where it was found, and nothing hangs on how that goes. -/
theorem execute_cleansUp :
    buffer.CleansUp command maxResponse
        ((buffer.execute command maxResponse).trace device state)
        ((buffer.execute command maxResponse).run device state).1 ∧
      fifo.CleansUp command maxResponse
        ((fifo.execute command maxResponse).trace device state)
        ((fifo.execute command maxResponse).run device state).1 :=
  ⟨CommandBuffer.runs_execute_cleansUp (runs_trace device _ state),
    Fifo.runs_execute_cleansUp (runs_trace device _ state)⟩

/-- A command stops at a fault. Only whether the chip could be sent to idle is passed over: had the
chip answered differently to that, and the same to all that follows, the command would have gone on
and ended the same. -/
theorem execute_stopsAtFault :
    buffer.StopsAtFault
        ((buffer.execute command maxResponse).trace device state)
        ((buffer.execute command maxResponse).run device state).1 ∧
      (∀ before after answer answer',
        (buffer.execute command maxResponse).trace device state =
            before ++ buffer.exitWrite answer :: after →
          (buffer.execute command maxResponse).Runs (before ++ buffer.exitWrite answer' :: after)
            ((buffer.execute command maxResponse).run device state).1) ∧
      fifo.StopsAtFault
        ((fifo.execute command maxResponse).trace device state)
        ((fifo.execute command maxResponse).run device state).1 := by
  have hbuffer := runs_trace device (buffer.execute command maxResponse) state
  refine ⟨CommandBuffer.runs_execute_stopsAtFault hbuffer, ?_,
    Fifo.runs_execute_stopsAtFault (runs_trace device _ state)⟩
  intro before after answer answer' htrace
  rw [htrace] at hbuffer
  exact CommandBuffer.ignores_execute _ _ _ _ _ answer answer' _
    (CommandBuffer.isGoIdle_exitWrite answer) hbuffer

/-- A chip that reads as zero everywhere and takes no writes. -/
def stuckChip : Device Unit where
  read _ _ _ := (.ok 0, ())
  write addr _ _ _ := (.error (.unmapped addr), ())
  stall _ _ := ()
  note _ _ := ()

/-- With two attempts and no time to wait, the stuck chip is looked at twice. Had it been possible
to send it to idle in between, it would have counted as busy all the same. -/
theorem execute_stopsAtFault_stuckChip :
    let buffer : CommandBuffer := ⟨0, .notSupported, ⟨0, 0, 0, 0, 30, 2, 0⟩⟩
    let look : Event := .read (BufferRegister.status.addr 0) .dword (.ok 0)
    let lost := buffer.exitWrite (.error (.unmapped 0x40))
    (buffer.execute [0x80, 0x01] 16).trace stuckChip () = [look, lost, look, lost] ∧
      (buffer.execute [0x80, 0x01] 16).Runs [look, buffer.exitWrite (.ok ()), look, lost]
        (.error .deviceBusy) :=
  ⟨rfl, (execute_stopsAtFault stuckChip () _ ⟨0, Timeouts.fifo⟩ _ _).2.1 [_] [_, _] _ _ rfl⟩

/-- A command is cancelled at most once, and only when it has been waited for in vain. On the
command buffer a cancel is taken back before the exit, on the FIFO it stays; on both, the response
is read behind it only if the chip has answered to it. -/
theorem execute_cancels :
    buffer.CancelDiscipline ((buffer.execute command maxResponse).trace device state) ∧
      fifo.CancelDiscipline ((fifo.execute command maxResponse).trace device state) :=
  ⟨CommandBuffer.runs_execute_cancelDiscipline (runs_trace device _ state),
    Fifo.runs_execute_cancelDiscipline (runs_trace device _ state)⟩

end

/-- A chip that reads the same everywhere and takes all writes. -/
def steadyChip (value : UInt64) : Device Unit where
  read _ _ _ := (.ok value, ())
  write _ _ _ _ := (.ok (), ())
  stall _ _ := ()
  note _ _ := ()

end TpmLink
