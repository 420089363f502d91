import TpmLink.Proofs.Bus.Effort
import TpmLink.Selection

/-!
# The page of a locality

The rules that an access is held to: all its bytes lie in the page, and a write goes to a place that
is meant to be written. Stalls are held to the quantum of the poller.
-/

namespace TpmLink

/-- Number of bytes that the chip decodes for a locality. -/
def pageSize : Nat := 0x1000

/-- All bytes of an access lie in the page. -/
def InPage (base addr : Nat) (width : Width) : Prop :=
  base ≤ addr ∧ addr + width.bytes ≤ base + pageSize

namespace Event

/-- All bytes that are accessed lie in the page. -/
def InPage (base : Nat) : Event → Prop
  | read addr width _ | write addr width _ _ => TpmLink.InPage base addr width
  | stall _ => True

/-- Accesses stay in the page, writes go to such places only, and every stall has that length. -/
def Obeys (base : Nat) (writable : Nat → Width → UInt64 → Prop) (quantum : Nat) : Event → Prop
  | read addr width _ => TpmLink.InPage base addr width
  | write addr width value _ => TpmLink.InPage base addr width ∧ writable addr width value
  | stall micros => micros = quantum

end Event

namespace Trace

variable {base quantum : Nat} {writable : Nat → Width → UInt64 → Prop} {trace : Trace}

/-- No access leaves the page, and writes go to such places only. -/
structure Confined (base : Nat) (writable : Nat → Width → UInt64 → Prop) (trace : Trace) :
    Prop where
  inPage : ∀ event ∈ trace, event.InPage base
  writes : ∀ addr width value answer,
    .write addr width value answer ∈ trace → writable addr width value

theorem confined_of_obeys (h : ∀ event ∈ trace, event.Obeys base writable quantum) :
    trace.Confined base writable where
  inPage event hmem := by
    have hevent := h event hmem
    cases event with
    | read => exact hevent
    | write => exact hevent.1
    | stall => trivial
  writes addr width value answer hmem := (h _ hmem).2

end Trace

/-! ### Registers -/

variable {base : Nat} {width : Width}

/-- A word of 64 bits keeps the places of a page apart, also where the page runs past its end. -/
theorem eq_of_word_eq {addr addr' : Nat} (h : InPage base addr .byte)
    (h' : InPage base addr' .byte) (heq : addr % UInt64.size = addr' % UInt64.size) :
    addr = addr' := by
  have hpage : pageSize < UInt64.size := by decide
  have hbyte : Width.bytes .byte = 1 := rfl
  obtain ⟨hlow, hhigh⟩ := h
  obtain ⟨hlow', hhigh'⟩ := h'
  rw [pageSize] at hhigh hhigh'
  rw [UInt64.size] at heq
  omega

theorem inPage_offset {offset : Nat} (h : offset + width.bytes ≤ pageSize) :
    InPage base (base + offset) width :=
  ⟨Nat.le_add_right _ _, by omega⟩

/-- The last byte of the data buffer is the last byte of the page. -/
theorem inPage_dataBuffer {index : Nat} (h : index < dataBufferSize) :
    InPage base (BufferRegister.dataBuffer.addr base + index) .byte := by
  have hsize : BufferRegister.dataBuffer.offset + dataBufferSize = pageSize := rfl
  have hbyte : Width.bytes .byte = 1 := rfl
  rw [BufferRegister.addr, Nat.add_assoc]
  exact inPage_offset (by omega)

/-! ### Selection -/

namespace Selection

open Script

theorem only_readReg {kind : Event → Prop} {addr : Nat}
    (h : ∀ answer, kind (.read addr .dword answer)) : (readReg addr).Only kind :=
  only_checked_read h

/-- What the selection of an interface does: it reads in the page. -/
def IsLook (base : Nat) : Event → Prop := Event.Obeys base (fun _ _ _ => False) 0

theorem only_isPresent : (isPresent base).Only (IsLook base) := by
  have haccess : InPage base (FifoRegister.access.addr base) .byte := inPage_offset (by decide)
  exact only_bind (only_checked_read fun _ => haccess) fun _ =>
    only_bind (only_note _) fun _ => only_pure _

theorem only_classify : (classify base).Only (IsLook base) := by
  have hidentifier : InPage base (BufferRegister.interfaceId.addr base) .dword :=
    inPage_offset (by decide)
  have hcapability : InPage base (FifoRegister.capability.addr base) .dword :=
    inPage_offset (by decide)
  exact only_bind (only_readReg fun _ => hidentifier) fun _ =>
    only_bind (only_readReg fun _ => hcapability) fun _ =>
      only_bind (only_note _) fun _ => only_pure _

theorem only_identify {kind : InterfaceKind} : (identify base kind).Only (IsLook base) := by
  refine only_bind (only_readReg fun answer => ?_) fun _ => only_note _
  cases kind with
  | commandBuffer => exact inPage_offset (by decide)
  | tis | fifo | unsupported => exact inPage_offset (by decide)

theorem only_probe : (probe base).Only (IsLook base) := by
  refine only_bind only_isPresent fun present => ?_
  split
  · exact only_classify
  · exact only_pure _

theorem only_select : (select base).Only (IsLook base) := by
  refine only_bind only_isPresent fun present => ?_
  split
  · refine only_bind only_classify fun interface => ?_
    split
    · exact only_bind (only_note _) fun _ => only_throw _
    · exact only_bind (only_note _) fun _ => only_throw _
    · exact only_bind only_identify fun _ => only_pure _
  · exact only_bind (only_note _) fun _ => only_throw _

end Selection

end TpmLink
