import TpmLink.Text.Hex

/-!
# What can go wrong

Three small vocabularies: a bus access that could not be made (`BusFault`), firmware that does not
lead to a chip (`LocateFault`), and the failures that callers of this library see (`Failure`).
-/

namespace TpmLink

/-- Why a single bus access was not made. -/
inductive BusFault where
  | unmapped (addr : Nat)
  /-- The number of bytes is not 1, 2, 4 or 8. -/
  | badWidth (bytes : Nat)
  /-- The access is not wholly inside the register window. -/
  | outOfRange (addr : Nat)
  deriving DecidableEq, Repr

def BusFault.message : BusFault → String
  | .unmapped addr => "cannot map physical address " ++ Hex.marked addr
  | .badWidth bytes => "unsupported access width " ++ toString bytes
  | .outOfRange addr => "address " ++ Hex.marked addr ++ " is outside the register window"

/-- Why firmware gives no address for the chip. -/
inductive LocateFault where
  | notFound
  /-- A table was there but is malformed. -/
  | badTable
  deriving DecidableEq, Repr

def LocateFault.message : LocateFault → String
  | .notFound => "no TPM described by firmware"
  | .badTable => "malformed TPM2 firmware table"

/-- Failures of a command. -/
inductive Failure where
  /-- A register condition did not come true in time. Transports retry it or turn it into
  `deviceBusy`, so no command ends with it. -/
  | timeout
  /-- The chip does not answer, was left in the middle of a command, or sent something that is not a
  valid structure. -/
  | deviceBusy
  /-- An unexpected tag or an algorithm that has no place here. -/
  | notSupported
  /-- The response does not fit, or the chip wanted more command bytes than there were. -/
  | bufferTooSmall
  /-- The call itself is wrong, such as a handle to an object of another kind. -/
  | invalidParameter
  /-- A register access failed. -/
  | io
  /-- No chip answers at the address. -/
  | notConnected
  deriving DecidableEq, Repr

def Failure.message : Failure → String
  | .timeout => "timed out waiting for the TPM"
  | .deviceBusy => "TPM is busy or unresponsive"
  | .notSupported => "operation or algorithm not supported"
  | .bufferTooSmall => "buffer too small"
  | .invalidParameter => "invalid parameter"
  | .io => "register access failed"
  | .notConnected => "no TPM present"

end TpmLink
