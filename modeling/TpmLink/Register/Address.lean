/-!
# Register addresses

The chip decodes one 4K page for each locality. The page holds either the FIFO registers or the
command buffer registers; both layouts share the access register at its start and the interface
identifier at 0x30. Offsets are relative to the base of the page.

Addresses are numbers without an end. On a bus of 64 bits a page at the very end of the addresses
goes on at their beginning. That gives other names to some of its places and keeps all of them
apart, so nothing that is true on all devices depends on it.
-/

namespace TpmLink

/-- Where the page is on PC platforms. -/
def defaultBase : Nat := 0xFED40000

/-- Five localities of 4K each. -/
def regionSize : Nat := 5 * 4096

/-- The access register reads all ones when nothing decodes the address. -/
def noDevice : UInt8 := 0xFF

/-- Registers of the FIFO interface. -/
inductive FifoRegister where
  | access
  | intEnable
  | intVector
  | intStatus
  | capability
  | status
  /-- A 16-bit register at an odd offset. -/
  | burstCount
  | dataFifo
  | interfaceId
  | didVid
  | revision
  deriving DecidableEq, Repr

namespace FifoRegister

def offset : FifoRegister → Nat
  | access => 0x0000
  | intEnable => 0x0008
  | intVector => 0x000C
  | intStatus => 0x0010
  | capability => 0x0014
  | status => 0x0018
  | burstCount => 0x0019
  | dataFifo => 0x0024
  | interfaceId => 0x0030
  | didVid => 0x0F00
  | revision => 0x0F04

def addr (base : Nat) (register : FifoRegister) : Nat := base + register.offset

/-- The name in the register tables of the profile. -/
def name : FifoRegister → String
  | access => "TPM_ACCESS"
  | intEnable => "TPM_INT_ENABLE"
  | intVector => "TPM_INT_VECTOR"
  | intStatus => "TPM_INT_STATS"
  | capability => "TPM_INTF_CAPABILITY"
  | status => "TPM_STS"
  | burstCount => "TPM_BURST_COUNT"
  | dataFifo => "TPM_DATA_FIFO"
  | interfaceId => "TPM_INTERFACE_ID"
  | didVid => "TPM_DID_VID"
  | revision => "TPM_RID"

def all : List FifoRegister :=
  [access, intEnable, intVector, intStatus, capability, status, burstCount, dataFifo, interfaceId,
    didVid, revision]

theorem mem_all (register : FifoRegister) : register ∈ all := by cases register <;> decide

end FifoRegister

/-- Registers of the command buffer interface. -/
inductive BufferRegister where
  | localityState
  | localityControl
  | localityStatus
  | interfaceId
  | vidDid
  | extension
  | request
  | status
  | cancel
  | start
  | intEnable
  | intStatus
  | commandSize
  | commandLow
  | commandHigh
  | responseSize
  /-- A 64-bit register. -/
  | responseAddress
  | dataBuffer
  deriving DecidableEq, Repr

namespace BufferRegister

def offset : BufferRegister → Nat
  | localityState => 0x0000
  | localityControl => 0x0008
  | localityStatus => 0x000C
  | interfaceId => 0x0030
  | vidDid => 0x0034
  | extension => 0x0038
  | request => 0x0040
  | status => 0x0044
  | cancel => 0x0048
  | start => 0x004C
  | intEnable => 0x0050
  | intStatus => 0x0054
  | commandSize => 0x0058
  | commandLow => 0x005C
  | commandHigh => 0x0060
  | responseSize => 0x0064
  | responseAddress => 0x0068
  | dataBuffer => 0x0080

def addr (base : Nat) (register : BufferRegister) : Nat := base + register.offset

/-- The name in the register tables of the profile. -/
def name : BufferRegister → String
  | localityState => "TPM_LOC_STATE"
  | localityControl => "TPM_LOC_CTRL"
  | localityStatus => "TPM_LOC_STS"
  | interfaceId => "TPM_CRB_INTF_ID"
  | vidDid => "TPM_CRB_VID_DID"
  | extension => "TPM_CRB_CTRL_EXT"
  | request => "TPM_CRB_CTRL_REQ"
  | status => "TPM_CRB_CTRL_STS"
  | cancel => "TPM_CRB_CTRL_CANCEL"
  | start => "TPM_CRB_CTRL_START"
  | intEnable => "TPM_CRB_INT_ENABLE"
  | intStatus => "TPM_CRB_INT_STS"
  | commandSize => "TPM_CRB_CTRL_CMD_SIZE"
  | commandLow => "TPM_CRB_CTRL_CMD_LADDR"
  | commandHigh => "TPM_CRB_CTRL_CMD_HADDR"
  | responseSize => "TPM_CRB_CTRL_RSP_SIZE"
  | responseAddress => "TPM_CRB_CTRL_RSP_ADDR"
  | dataBuffer => "TPM_CRB_DATA_BUFFER"

def all : List BufferRegister :=
  [localityState, localityControl, localityStatus, interfaceId, vidDid, extension, request, status,
    cancel, start, intEnable, intStatus, commandSize, commandLow, commandHigh, responseSize,
    responseAddress, dataBuffer]

theorem mem_all (register : BufferRegister) : register ∈ all := by cases register <;> decide

end BufferRegister

/-- The data buffer runs from its register to the end of the page. -/
def dataBufferSize : Nat := 0x1000 - BufferRegister.dataBuffer.offset

end TpmLink
