import TpmLink.Proofs.Bus.Page
import TpmLink.Transport.CommandBuffer

/-!
# The limits of a command on the command buffer

For each phase: it stays in the page, it writes only what is meant to be written, and it stalls and
accesses the bus so often at most. The waits are limited by their budgets, the attempts by their
number, and the bytes by the length of the command and the capacity.
-/

namespace TpmLink

namespace CommandBuffer

open Script

variable (link : CommandBuffer)

/-- The registers of 32 bits that a command may write. -/
def writtenRegisters : List BufferRegister :=
  [.request, .cancel, .start, .commandHigh, .commandLow, .commandSize, .responseSize]

/-- What a command of that length may write. -/
inductive Writable (length : Nat) : Nat → Width → UInt64 → Prop where
  | register {register : BufferRegister} (h : register ∈ writtenRegisters) (value : UInt64) :
    Writable length (register.addr link.base) .dword value
  | responseAddress (value : UInt64) :
    Writable length (BufferRegister.responseAddress.addr link.base) .qword value
  | data {index : Nat} (h : index < length) (value : UInt64) :
    Writable length (link.data + index) .byte value

/-- The events that a command of that length is confined to. -/
def Allowed (length : Nat) : Event → Prop :=
  Event.Obeys link.base (link.Writable length) (max 1 link.timeouts.pollQuantum)

/-- How many probes of a register a budget allows. -/
def probes (micros : Nat) : Nat := link.timeouts.probes micros

variable {link} {length : Nat} {register : BufferRegister}

/-! ### Registers -/

theorem offset_add_le : register.offset + Width.bytes .dword ≤ pageSize := by
  cases register <;> decide

theorem bounded_readReg : (link.readReg register).Bounded (link.Allowed length) 0 1 :=
  bounded_checked_read fun _ => inPage_offset offset_add_le

theorem bounded_writeReg (h : register ∈ writtenRegisters) (value : UInt32) :
    (link.writeReg register value).Bounded (link.Allowed length) 0 1 :=
  bounded_checked_write fun _ => ⟨inPage_offset offset_add_le, .register h _⟩

theorem bounded_waitReg {set clear : UInt32} {timeout : Nat} :
    (link.waitReg register set clear timeout).Bounded (link.Allowed length) (link.probes timeout)
      (link.probes timeout) := by
  have hstall : link.Allowed length
      (.stall link.timeouts.poller.quantum) := rfl
  exact bounded_waitBits bounded_readReg hstall timeout

/-! ### Ready -/

theorem bounded_ensureIdle : link.ensureIdle.Bounded (link.Allowed length)
    (link.probes link.timeouts.c) (link.probes link.timeouts.c + 1) := by
  unfold ensureIdle
  split
  · exact (bounded_pure _).of_zero
  · refine (bounded_readReg.bind fun value => (?_ : Bounded _ (link.probes link.timeouts.c)
      (link.probes link.timeouts.c) _)).mono (by omega) (by omega)
    dsimp only
    split
    · exact (bounded_pure _).of_zero
    · exact bounded_waitReg.note_bind

theorem bounded_requestReady : link.requestReady.Bounded (link.Allowed length)
    (link.probes link.timeouts.c) (link.probes link.timeouts.c + 1) :=
  ((bounded_writeReg (by decide) _).bind fun _ => bounded_waitReg).mono (by omega) (by omega)

theorem bounded_handshake : link.handshake.Bounded (link.Allowed length)
    (3 * link.probes link.timeouts.c) (3 * link.probes link.timeouts.c + 2) :=
  (bounded_ensureIdle.bind fun _ => bounded_requestReady.bind fun _ => bounded_waitReg).mono
    (by omega) (by omega)

theorem bounded_rewind {attempt : Nat} :
    (link.rewind attempt).Bounded (link.Allowed length) 0 1 := by
  have hwrite : (link.writeReg .request BufferRequest.goIdle.bits).Bounded (link.Allowed length)
      0 1 := bounded_writeReg (by decide) _
  refine Bounded.note_bind ((hwrite.andThen fun result => (?_ : Bounded _ 0 0 _)).mono
    (Nat.le_refl _) (Nat.le_refl _))
  cases result with
  | ok value => exact bounded_pure value
  | error failure => exact bounded_pure ()

/-- There are as many attempts as the budget for retries says, and at least one. -/
theorem bounded_makeReady : link.makeReady.Bounded (link.Allowed length)
    (max 1 link.timeouts.retryMax * (3 * link.probes link.timeouts.c))
    (max 1 link.timeouts.retryMax * (3 * link.probes link.timeouts.c + 3)) :=
  (bounded_retry (fun _ _ => bounded_rewind) fun _ => bounded_handshake).onTimeout_throw

/-! ### Command -/

theorem bounded_writeBytes {addr : Nat} {bytes : Bytes}
    (h : ∀ index < bytes.length, ∀ value answer,
      link.Allowed length (.write (addr + index) .byte value answer)) :
    (writeBytes addr bytes).Bounded (link.Allowed length) 0 bytes.length := by
  induction bytes generalizing addr with
  | nil => exact bounded_pure ()
  | cons byte rest ih =>
    -- Byte `index` of the rest is byte `index + 1` of the whole.
    have hrest : ∀ index < rest.length, ∀ value answer,
        link.Allowed length (.write (addr + 1 + index) .byte value answer) := by
      intro index hindex value answer
      rw [Nat.add_right_comm, Nat.add_assoc]
      exact h (index + 1) (Nat.succ_lt_succ hindex) value answer
    have hfirst := bounded_checked_write fun answer => h 0 (by simp) byte.toUInt64 answer
    exact (hfirst.bind fun _ => ih hrest).mono (Nat.le_refl _)
      (Nat.le_of_eq (Nat.add_comm 1 rest.length))

theorem bounded_writeCommand {command : Bytes} (hlength : command.length ≤ dataBufferSize) :
    (link.writeCommand command).Bounded (link.Allowed command.length) 0 (command.length + 5) := by
  have hbytes : (writeBytes link.data command).Bounded (link.Allowed command.length) 0
      command.length :=
    bounded_writeBytes fun index hindex value _ =>
      ⟨inPage_dataBuffer (Nat.lt_of_lt_of_le hindex hlength), .data hindex value⟩
  have haddress : ∀ value answer, link.Allowed command.length
      (.write (BufferRegister.responseAddress.addr link.base) .qword value answer) :=
    fun value _ => ⟨inPage_offset (by decide), .responseAddress value⟩
  have hregister : ∀ register ∈ writtenRegisters, ∀ value,
      (link.writeReg register value).Bounded (link.Allowed command.length) 0 1 :=
    fun register h value => bounded_writeReg h value
  exact hbytes.bind fun _ => (hregister .commandHigh (by decide) _).bind fun _ =>
    (hregister .commandLow (by decide) _).bind fun _ =>
      (hregister .commandSize (by decide) _).bind fun _ =>
        (bounded_checked_write (haddress _)).bind fun _ => hregister .responseSize (by decide) _

/-! ### Execution -/

theorem bounded_cancel : link.cancel.Bounded (link.Allowed length)
    (link.probes link.timeouts.b) (link.probes link.timeouts.b + 2) := by
  have hwait : (link.awaitDone link.timeouts.b).observe.Bounded (link.Allowed length)
      (link.probes link.timeouts.b) (link.probes link.timeouts.b) :=
    bounded_waitReg.andThen fun result => bounded_pure result
  have hwrite : ∀ value, (link.writeReg .cancel value).Bounded (link.Allowed length) 0 1 :=
    fun value => bounded_writeReg (by decide) value
  refine Bounded.note_bind (((hwrite _).bind fun _ => hwait.bind fun found =>
    (hwrite _).bind fun _ => (?_ : Bounded _ 0 0 _)).mono (by omega) (by omega))
  cases found with
  | ok value => exact bounded_pure ()
  | error failure =>
    cases failure with
    | timeout => exact (bounded_throw _).note_bind
    | _ => exact bounded_throw _

theorem bounded_start : link.start.Bounded (link.Allowed length)
    (link.probes link.timeouts.max + link.probes link.timeouts.b)
    (link.probes link.timeouts.max + link.probes link.timeouts.b + 3) :=
  ((bounded_writeReg (by decide) _).bind fun _ => bounded_waitReg.onTimeout bounded_cancel).mono
    (by omega) (by omega)

/-! ### Response -/

theorem bounded_readBytes {addr count : Nat} {soFar : Bytes}
    (h : ∀ index < count, ∀ answer, link.Allowed length (.read (addr + index) .byte answer)) :
    (readBytes addr count soFar).Bounded (link.Allowed length) 0 count := by
  induction count generalizing addr soFar with
  | zero => exact bounded_pure _
  | succ count ih =>
    have hrest : ∀ index < count, ∀ answer,
        link.Allowed length (.read (addr + 1 + index) .byte answer) := by
      intro index hindex answer
      rw [Nat.add_right_comm, Nat.add_assoc]
      exact h (index + 1) (Nat.succ_lt_succ hindex) answer
    exact ((bounded_checked_read fun answer => h 0 (Nat.succ_pos _) answer).bind fun _ =>
      ih hrest).mono (Nat.le_refl _) (Nat.le_of_eq (Nat.add_comm 1 count))

/-- The response lies in the buffer, since no more is read than the capacity allows. -/
theorem bounded_readResponse {capacity : Nat} (hcapacity : capacity ≤ dataBufferSize) :
    (link.readResponse capacity).Bounded (link.Allowed length) 0 (max Header.size capacity) := by
  have hheader : Header.size ≤ dataBufferSize := by decide
  have hread : ∀ index < dataBufferSize, ∀ answer,
      link.Allowed length (.read (link.data + index) .byte answer) :=
    fun index hindex _ => inPage_dataBuffer hindex
  refine (Bounded.bind (bounded_readBytes fun index hindex => hread index (by omega)) fun header =>
    (?_ : Bounded _ 0 (capacity - Header.size) _)).mono (Nat.le_refl _) (by omega)
  refine (only_acceptResponse.bounded.bind_of_ok fun size front haccept =>
    (?_ : Bounded _ 0 (capacity - Header.size) _)).mono (Nat.le_refl _) (by omega)
  have hfits := runs_acceptResponse_ok haccept
  split
  · exact (bounded_pure _).mono (Nat.le_refl _) (Nat.zero_le _)
  · refine (bounded_readBytes fun index hindex answer => ?_).mono (Nat.le_refl _)
      (Nat.sub_le_sub_right hfits _)
    rw [Nat.add_assoc]
    exact hread (Header.size + index) (by omega) answer

theorem bounded_exit : link.exit.Bounded (link.Allowed length) 0 1 := by
  refine bounded_write_bind (fun answer => ?_) fun answer => ?_
  · exact ⟨inPage_offset offset_add_le, .register (by decide) _⟩
  · cases answer with
    | ok value => exact only_pure _
    | error fault => exact only_note _

/-! ### The whole -/

/-- How often a command stalls at most. -/
def stallLimit (link : CommandBuffer) : Nat :=
  3 * max 1 link.timeouts.retryMax * link.probes link.timeouts.c +
    link.probes link.timeouts.max + link.probes link.timeouts.b

/-- How often a command of that length accesses the bus at most. -/
def accessLimit (link : CommandBuffer) (length capacity : Nat) : Nat :=
  max 1 link.timeouts.retryMax * (3 * link.probes link.timeouts.c + 3) +
    link.probes link.timeouts.max + link.probes link.timeouts.b +
    length + max Header.size capacity + 9

variable {command : Bytes} {capacity maxResponse : Nat}

theorem bounded_session (hlength : command.length ≤ dataBufferSize)
    (hcapacity : capacity ≤ dataBufferSize) :
    (link.session command capacity).Bounded (link.Allowed command.length)
      (max 1 link.timeouts.retryMax * (3 * link.probes link.timeouts.c) +
        (link.probes link.timeouts.max + link.probes link.timeouts.b))
      (max 1 link.timeouts.retryMax * (3 * link.probes link.timeouts.c + 3) +
        (command.length + 5 + (link.probes link.timeouts.max + link.probes link.timeouts.b + 3 +
          max Header.size capacity))) :=
  (bounded_makeReady.bind fun _ => ((bounded_writeCommand hlength).bind fun _ =>
    bounded_start.bind fun _ => bounded_readResponse hcapacity).note_bind).mono
      (by omega) (by omega)

/-- However the device answers, a command stays within its limits. -/
theorem bounded_execute : (link.execute command maxResponse).Bounded (link.Allowed command.length)
    link.stallLimit (link.accessLimit command.length (min maxResponse dataBufferSize)) := by
  have hstalls : max 1 link.timeouts.retryMax * (3 * link.probes link.timeouts.c) =
      3 * max 1 link.timeouts.retryMax * link.probes link.timeouts.c := by
    rw [Nat.mul_left_comm, Nat.mul_assoc]
  unfold execute
  split
  · exact (bounded_throw _).note_bind.of_zero
  next hlength =>
    refine ((bounded_session (Nat.le_of_not_lt hlength) (Nat.min_le_right _ _)).ensuring
      bounded_exit).mono ?_ ?_
    · rw [stallLimit]
      omega
    · rw [accessLimit]
      omega

end CommandBuffer

end TpmLink
