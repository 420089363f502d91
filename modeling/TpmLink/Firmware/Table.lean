import TpmLink.Bytes
import TpmLink.Failure

/-!
# The firmware table of the chip

Firmware describes the chip in a table with the signature `TPM2`: a header of 36 bytes that holds
the table's length, then the platform class, the address of the control area and the start method,
all low byte first. A table is read only if its declared length covers these fields and lies inside
the bytes at hand.
-/

namespace TpmLink

/-- How firmware says that a command is started. -/
inductive StartMethod where
  | acpiStart
  /-- The FIFO over memory mapped registers. -/
  | mmio
  | commandBuffer
  | commandBufferWithAcpiStart
  | commandBufferWithSmc
  deriving DecidableEq, Repr

namespace StartMethod

def ofCode? (code : UInt32) : Option StartMethod :=
  match code with
  | 2 => some acpiStart
  | 6 => some mmio
  | 7 => some commandBuffer
  | 8 => some commandBufferWithAcpiStart
  | 11 => some commandBufferWithSmc
  | _ => none

/-- Does the method imply the command buffer interface? -/
def isCommandBuffer : StartMethod → Bool
  | acpiStart | mmio => false
  | commandBuffer | commandBufferWithAcpiStart | commandBufferWithSmc => true

def name : StartMethod → String
  | acpiStart => "AcpiStart"
  | mmio => "Mmio"
  | commandBuffer => "CommandResponseBuffer"
  | commandBufferWithAcpiStart => "CommandResponseBufferWithAcpiStart"
  | commandBufferWithSmc => "CommandResponseBufferWithSmc"

end StartMethod

structure FirmwareTable where
  platformClass : UInt16
  controlArea : UInt64
  startMethod : UInt32
  deriving DecidableEq, Repr

namespace FirmwareTable

/-- The letters `TPM2`. -/
def signature : Bytes := [0x54, 0x50, 0x4D, 0x32]

/-- Length of the header that every firmware table starts with. -/
def headerLength : Nat := 36

/-- Length up to the end of the start method. -/
def minLength : Nat := 52

def parse (raw : Bytes) : Except LocateFault FirmwareTable :=
  if raw.length < headerLength ∨ raw.take 4 ≠ signature then .error .notFound
  else
    let declared := leValue (slice raw 4 4)
    if declared < minLength ∨ raw.length < declared then .error .badTable
    else .ok {
      platformClass := UInt16.ofNat (leValue (slice raw 36 2))
      controlArea := UInt64.ofNat (leValue (slice raw 40 8))
      startMethod := UInt32.ofNat (leValue (slice raw 48 4)) }

/-- The start method, if it is one of the known ones. -/
def method? (table : FirmwareTable) : Option StartMethod := StartMethod.ofCode? table.startMethod

end FirmwareTable

end TpmLink
