import TpmLink.Interface
import TpmLink.Register.Address
import TpmLink.Script

/-!
# Which interface a chip has

The access register tells whether there is a chip at all. The interface identifier and the FIFO
capability register carry the signatures, which are tried in order: command buffer, FIFO of the
platform profile, older FIFO. Nothing is written.
-/

namespace TpmLink.Selection

def readReg (addr : Nat) : Script UInt32 := Script.checked (Script.readDword addr)

/-- Does anything decode the page? -/
def isPresent (base : Nat) : Script Bool := do
  let access ← Script.checked (Script.readByte (FifoRegister.access.addr base))
  note (.presence access)
  return access != noDevice

/-- The first signature that the identifier and the capability register carry. -/
def ofSignature (identifier capability : UInt32) : Interface :=
  let kind := Register.InterfaceId.interfaceType.bits identifier
  let version := Register.InterfaceId.version.bits identifier
  if kind = Register.InterfaceId.typeCommandBuffer
      ∧ version = Register.InterfaceId.versionCommandBuffer
      ∧ Register.InterfaceId.commandBuffer.isSet identifier then
    ⟨.commandBuffer, .ofState (Register.InterfaceId.idleBypass.bits identifier).toUInt8⟩
  else if kind = Register.InterfaceId.typeFifo
      ∧ version = Register.InterfaceId.versionFifo
      ∧ Register.InterfaceId.fifo.isSet identifier
      ∧ Register.Capability.interfaceVersion.bits capability = Register.Capability.versionPtp then
    ⟨.fifo, .unknown⟩
  else if kind = Register.InterfaceId.typeTis then
    ⟨.tis, .unknown⟩
  else Interface.unsupported

/-- The interface of a chip that is present. -/
def classify (base : Nat) : Script Interface := do
  let identifier ← readReg (BufferRegister.interfaceId.addr base)
  let capability ← readReg (FifoRegister.capability.addr base)
  note (.signature identifier capability)
  return ofSignature identifier capability

/-- The interface at the address, `unsupported` if there is no chip or none that is known. -/
def probe (base : Nat) : Script Interface := do
  if ← isPresent base then classify base
  else return Interface.unsupported

/-- Read and report who made the chip. -/
def identify (base : Nat) (kind : InterfaceKind) : Script Unit := do
  let vendorDevice ← readReg <| match kind with
    | .commandBuffer => BufferRegister.vidDid.addr base
    | _ => FifoRegister.didVid.addr base
  note (.identity kind vendorDevice)

/-- The interface that every later command goes through. -/
def select (base : Nat) : Script Interface := do
  if ← isPresent base then
    let interface ← classify base
    match interface with
    | ⟨.unsupported, _⟩ =>
      note (.noSignature base)
      throw .notSupported
    | ⟨.commandBuffer, .unknown⟩ =>
      note .bypassUndefined
      throw .notSupported
    | ⟨kind, _⟩ =>
      identify base kind
      return interface
  else
    note (.noChip base)
    throw .notConnected

end TpmLink.Selection
