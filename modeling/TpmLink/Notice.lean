import TpmLink.Firmware.Table
import TpmLink.Interface
import TpmLink.Register.Flags
import TpmLink.Register.Layouts
import TpmLink.Wire.Malformed

/-!
# Notices

Everything the library reports on its way, apart from results. A notice says what happened; its
level and its text are functions of it, so a text is made only for a notice that somebody reads.
-/

namespace TpmLink

/-- How much a notice matters, the gravest first. -/
inductive Level where
  | error
  | warn
  | info
  | debug
  | trace
  deriving DecidableEq, Repr

namespace Level

/-- Place in the order of gravity, the gravest first. -/
def rank : Level → Nat
  | error => 0
  | warn => 1
  | info => 2
  | debug => 3
  | trace => 4

def name : Level → String
  | error => "error"
  | warn => "warn"
  | info => "info"
  | debug => "debug"
  | trace => "trace"

/-- Does a reader who asked for notices down to `limit` see this one? -/
def shownAt (level limit : Level) : Bool := level.rank ≤ limit.rank

end Level

inductive Notice where
  /-- A register access failed. -/
  | busFailed (fault : BusFault)
  /-- A register was read while waiting for bits. -/
  | polled (value set clear : UInt32)
  | windowRead (addr : Nat) (width : Nat) (value : UInt64)
  | windowWrite (addr : Nat) (width : Nat) (value : UInt64)
  | firmwareTable (table : FirmwareTable)
  /-- The response has the tag of version 1.2. -/
  | legacyResponse (tag : UInt16)
  /-- The declared size exceeds the capacity. -/
  | responseTooLong (size capacity : Nat)
  | responseAccepted (tag : UInt16) (size : Nat)
  /-- The response is not what its format asks for. -/
  | malformed (cause : Malformed)
  | decoded (algorithm : Algorithm) (nameSize : UInt16)
  | bufferCommandTooLong (length : Nat)
  | bufferNotIdle (status : BufferStatus)
  | bufferNotReady (attempt : Nat)
  | bufferNeverReady (attempts : Nat)
  | bufferReady (length : Nat)
  | bufferCancelling
  | bufferCancelIgnored
  | bufferStuckActive
  | fifoBurst (count : Nat)
  | fifoNoBurst
  | fifoNotReady
  | fifoReady (length : Nat)
  | fifoExpectsMore (length : Nat)
  | fifoCancelling
  | fifoCancelIgnored
  | fifoStuckActive
  | presence (access : UInt8)
  | signature (interfaceId capability : UInt32)
  | noChip (base : Nat)
  | noSignature (base : Nat)
  | bypassUndefined
  | identity (kind : InterfaceKind) (vendorDevice : UInt32)
  | notLocated (fault : LocateFault)
  | declarationDiffers (declared : StartMethod) (found : InterfaceKind)
  | opened (base : Nat) (kind : InterfaceKind)
  deriving Repr

namespace Notice

def level : Notice → Level
  | busFailed .. | legacyResponse .. | responseTooLong .. | malformed ..
  | bufferCommandTooLong .. | bufferNeverReady .. | bufferCancelIgnored
  | fifoNoBurst | fifoNotReady | fifoExpectsMore .. | fifoCancelIgnored
  | noChip .. | noSignature .. | bypassUndefined | notLocated .. => .error
  | bufferNotReady .. | bufferCancelling | bufferStuckActive
  | fifoCancelling | fifoStuckActive | declarationDiffers .. => .warn
  | identity .. | opened .. => .info
  | firmwareTable .. | responseAccepted .. | decoded .. | bufferReady .. | fifoReady ..
  | presence .. | signature .. => .debug
  | polled .. | windowRead .. | windowWrite .. | bufferNotIdle .. | fifoBurst .. => .trace

def message : Notice → String
  | busFailed fault => "register port: " ++ fault.message
  | polled value set clear =>
    "poll reg " ++ Hex.marked value.toNat ++ " set " ++ Hex.marked set.toNat ++ " clear " ++
      Hex.marked clear.toNat
  | windowRead addr width value =>
    "mmio read  " ++ Hex.marked addr ++ " (" ++ toString width ++ ") = " ++
      Hex.marked value.toNat
  | windowWrite addr width value =>
    "mmio write " ++ Hex.marked addr ++ " (" ++ toString width ++ ") <- " ++
      Hex.marked value.toNat
  | firmwareTable table =>
    "TPM2 table: control area " ++ Hex.marked table.controlArea.toNat ++ " start method " ++
      toString table.startMethod.toNat
  | legacyResponse tag => "response carries the TPM 1.2 tag " ++ Hex.marked tag.toNat
  | responseTooLong size capacity =>
    "response of " ++ toString size ++ " bytes exceeds the " ++ toString capacity ++
      " byte buffer"
  | responseAccepted tag size =>
    "response tag " ++ Hex.marked tag.toNat ++ " size " ++ toString size
  | malformed cause => cause.message
  | decoded algorithm nameSize =>
    "ReadPublic: " ++ algorithm.name ++ " key, name of " ++ toString nameSize.toNat ++ " bytes"
  | bufferCommandTooLong length =>
    "command of " ++ toString length ++ " bytes does not fit the CRB data buffer"
  | bufferNotIdle status => "waiting for CRB idle, sts " ++ status.render
  | bufferNotReady attempt =>
    "CRB not ready (attempt " ++ toString attempt ++ "), sending it to idle"
  | bufferNeverReady attempts =>
    "CRB did not become ready after " ++ toString attempts ++ " attempts"
  | bufferReady length => "CRB ready, sending " ++ toString length ++ " bytes"
  | bufferCancelling => "CRB command did not complete, cancelling"
  | bufferCancelIgnored => "CRB ignored cancel, device needs to be reset"
  | bufferStuckActive => "failed to send CRB to idle"
  | fifoBurst count => "burst count " ++ toString count
  | fifoNoBurst => "TIS burst count stayed at zero"
  | fifoNotReady => "TIS is not ready for a command"
  | fifoReady length => "TIS ready, sending " ++ toString length ++ " bytes"
  | fifoExpectsMore length =>
    "TIS expects more than the " ++ toString length ++ " command bytes sent"
  | fifoCancelling => "TIS command timed out, cancelling"
  | fifoCancelIgnored => "TIS ignored cancel, device needs to be reset"
  | fifoStuckActive => "failed to return TIS to ready"
  | presence access =>
    "presence probe " ++ Register.Access.layout.render true access.toUInt32
  | signature interfaceId capability =>
    Register.InterfaceId.layout.render true interfaceId ++ " " ++
      Register.Capability.layout.render true capability
  | noChip base => "no TPM at " ++ Hex.marked base
  | noSignature base => "no known TPM interface signature at " ++ Hex.marked base
  | bypassUndefined => "CRB idle bypass state undefined, check PTP support in firmware"
  | identity kind vendorDevice =>
    "TPM " ++ kind.name ++ " interface, VID " ++ Hex.padded 4 (vendorDevice &&& 0xFFFF).toNat ++
      " DID " ++ Hex.padded 4 (vendorDevice >>> 16).toNat
  | notLocated fault => "cannot locate TPM: " ++ fault.message
  | declarationDiffers declared found =>
    "firmware declares " ++ declared.name ++ " but the TPM reports " ++ found.name
  | opened base kind => "TPM at " ++ Hex.marked base ++ " using " ++ kind.name

end Notice

end TpmLink
