import TpmLink.Proofs.Bus.Page
import TpmLink.Transport.Fifo

/-!
# The limits of a command on the byte FIFO

For each phase: it stays in the page, it writes only what is meant to be written, and it stalls and
accesses the bus so often at most. Each byte, of the command as of the response, costs one wait and
one access beside it at most.
-/

namespace TpmLink

namespace Fifo

open Script

variable (link : Fifo)

/-- What a command may write. -/
inductive Writable : Nat → Width → UInt64 → Prop where
  | status (value : UInt64) : Writable link.status .byte value
  | cancel : Writable link.status .dword Register.Status.commandCancel.toUInt64
  | data (value : UInt64) : Writable link.data .byte value

/-- The events that a command is confined to. -/
def Allowed : Event → Prop :=
  Event.Obeys link.base link.Writable (max 1 link.timeouts.pollQuantum)

/-- How many probes of a register a budget allows. -/
def probes (micros : Nat) : Nat := link.timeouts.probes micros

variable {link} {bytes soFar command : Bytes} {budget count capacity : Nat}

/-! ### Status -/

theorem bounded_writeStatus {bits : UInt8} :
    (link.writeStatus bits).Bounded link.Allowed 0 1 :=
  bounded_checked_write fun _ => ⟨inPage_offset (by decide), .status _⟩

theorem bounded_waitStatus {set clear : UInt8} {timeout : Nat} :
    (link.waitStatus set clear timeout).Bounded link.Allowed (link.probes timeout)
      (link.probes timeout) := by
  have hstatus : ∀ answer, link.Allowed (.read link.status .byte answer) :=
    fun _ => inPage_offset (by decide)
  have hstall : link.Allowed (.stall link.poller.quantum) := rfl
  refine bounded_waitBits ?_ hstall timeout
  exact ((bounded_checked_read hstatus).bind fun _ => bounded_pure _).mono (Nat.le_refl _)
    (Nat.le_refl _)

/-! ### Bursts -/

theorem bounded_readBurst : link.readBurst.Bounded link.Allowed 0 2 := by
  have hlow : ∀ answer,
      link.Allowed (.read (FifoRegister.burstCount.addr link.base) .byte answer) :=
    fun _ => inPage_offset (by decide)
  have hhigh : ∀ answer,
      link.Allowed (.read (FifoRegister.burstCount.addr link.base + 1) .byte answer) := by
    intro answer
    rw [FifoRegister.addr, Nat.add_assoc]
    exact inPage_offset (by decide)
  exact ((bounded_checked_read hlow).bind fun _ => (bounded_checked_read hhigh).bind fun _ =>
    bounded_pure _).mono (Nat.le_refl _) (Nat.le_refl _)

theorem bounded_awaitBurst : link.awaitBurst.Bounded link.Allowed (link.probes link.timeouts.d)
    (link.probes link.timeouts.d * 2) := by
  have hstall : link.Allowed (.stall link.poller.quantum) := rfl
  refine (bounded_await ?_ hstall _).onTimeout_throw
  exact (bounded_readBurst.bind fun _ => (bounded_pure _).note_bind).mono (Nat.le_refl _)
    (Nat.le_refl _)

theorem bounded_refill : (link.refill budget).Bounded link.Allowed (link.probes link.timeouts.d)
    (link.probes link.timeouts.d * 2) := by
  unfold refill
  split
  · exact bounded_awaitBurst
  · exact (bounded_pure _).of_zero

/-- Whatever the burst counts are, each byte waits once at most. -/
theorem bounded_sendBytes : (link.sendBytes bytes budget).Bounded link.Allowed
    (bytes.length * link.probes link.timeouts.d)
    (bytes.length * (link.probes link.timeouts.d * 2 + 1)) := by
  have hdata : ∀ value answer, link.Allowed (.write link.data .byte value answer) :=
    fun value _ => ⟨inPage_offset (by decide), .data value⟩
  induction bytes generalizing budget with
  | nil => exact (bounded_pure _).of_zero
  | cons byte rest ih =>
    rw [List.length_cons, Nat.succ_mul, Nat.succ_mul]
    exact (bounded_refill.bind fun _ => (bounded_checked_write (hdata _)).bind fun _ => ih).mono
      (by omega) (by omega)

theorem bounded_receiveBytes : (link.receiveBytes count budget soFar).Bounded link.Allowed
    (count * link.probes link.timeouts.d) (count * (link.probes link.timeouts.d * 2 + 1)) := by
  have hdata : ∀ answer, link.Allowed (.read link.data .byte answer) :=
    fun _ => inPage_offset (by decide)
  induction count generalizing budget soFar with
  | zero => exact (bounded_pure _).of_zero
  | succ count ih =>
    rw [Nat.succ_mul, Nat.succ_mul]
    exact (bounded_refill.bind fun _ => (bounded_checked_read hdata).bind fun _ => ih).mono
      (by omega) (by omega)

/-! ### Phases -/

theorem bounded_prepare : link.prepare.Bounded link.Allowed (link.probes link.timeouts.b)
    (link.probes link.timeouts.b + 1) :=
  (bounded_writeStatus.bind fun _ => bounded_waitStatus.onTimeout_throw).mono (by omega) (by omega)

theorem bounded_send : (link.send command).Bounded link.Allowed
    (command.length * link.probes link.timeouts.d + link.probes link.timeouts.c)
    (command.length * (link.probes link.timeouts.d * 2 + 1) + link.probes link.timeouts.c) :=
  bounded_sendBytes.bind fun _ => bounded_waitStatus.onTimeout_throw

theorem bounded_cancel : link.cancel.Bounded link.Allowed (link.probes link.timeouts.b)
    (link.probes link.timeouts.b + 1) := by
  have hcancel : ∀ answer, link.Allowed
      (.write link.status .dword Register.Status.commandCancel.toUInt64 answer) :=
    fun _ => ⟨inPage_offset (by decide), .cancel⟩
  exact Bounded.note_bind (((bounded_checked_write hcancel).bind fun _ =>
    bounded_waitStatus.onTimeout_throw).mono (by omega) (by omega))

theorem bounded_start : link.start.Bounded link.Allowed
    (link.probes link.timeouts.max + link.probes link.timeouts.b)
    (link.probes link.timeouts.max + link.probes link.timeouts.b + 2) :=
  (bounded_writeStatus.bind fun _ => bounded_waitStatus.onTimeout bounded_cancel).mono
    (by omega) (by omega)

/-- No more is read than a header or the capacity. -/
theorem bounded_receive : (link.receive capacity).Bounded link.Allowed
    (max Header.size capacity * link.probes link.timeouts.d)
    (max Header.size capacity * (link.probes link.timeouts.d * 2 + 1)) := by
  have hmax : max Header.size capacity = Header.size + (capacity - Header.size) := by omega
  rw [hmax, Nat.add_mul, Nat.add_mul]
  refine bounded_receiveBytes.bind fun found => ?_
  refine (only_acceptResponse.bounded.bind_of_ok fun size front haccept =>
    (?_ : Bounded _ ((capacity - Header.size) * link.probes link.timeouts.d)
      ((capacity - Header.size) * (link.probes link.timeouts.d * 2 + 1)) _)).mono
        (by omega) (by omega)
  have hfits := Nat.sub_le_sub_right (runs_acceptResponse_ok haccept) Header.size
  split
  · exact (bounded_pure _).of_zero
  · exact (bounded_receiveBytes.bind fun _ => bounded_pure _).mono
      (Nat.mul_le_mul_right _ hfits) (Nat.mul_le_mul_right _ hfits)

theorem bounded_exit : link.exit.Bounded link.Allowed 0 1 := by
  refine bounded_write_bind (fun answer => ?_) fun answer => ?_
  · exact ⟨inPage_offset (by decide), .status _⟩
  · cases answer with
    | ok value => exact only_pure _
    | error fault => exact only_note _

/-! ### The whole -/

/-- How often a command of that length stalls at most. -/
def stallLimit (link : Fifo) (length capacity : Nat) : Nat :=
  2 * link.probes link.timeouts.b + link.probes link.timeouts.c + link.probes link.timeouts.max +
    (length + max Header.size capacity) * link.probes link.timeouts.d

/-- How often a command of that length accesses the bus at most. -/
def accessLimit (link : Fifo) (length capacity : Nat) : Nat :=
  2 * link.probes link.timeouts.b + link.probes link.timeouts.c + link.probes link.timeouts.max +
    (length + max Header.size capacity) * (link.probes link.timeouts.d * 2 + 1) + 4

/-- However the device answers, a command stays within its limits. -/
theorem bounded_execute : (link.execute command capacity).Bounded link.Allowed
    (link.stallLimit command.length capacity) (link.accessLimit command.length capacity) := by
  refine ((bounded_prepare.bind fun _ => (bounded_send.bind fun _ => bounded_start.bind fun _ =>
    bounded_receive).note_bind).ensuring bounded_exit).mono ?_ ?_
  · rw [stallLimit, Nat.add_mul]
    omega
  · rw [accessLimit, Nat.add_mul]
    omega

end Fifo

end TpmLink
