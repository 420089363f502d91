/-!
# Register interfaces

A chip shows its registers as a command buffer or as a FIFO; older chips show the FIFO layout under
another identifier. A command buffer further says whether it may get a command without being idle
first.
-/

namespace TpmLink

inductive InterfaceKind where
  | commandBuffer
  /-- The FIFO of chips older than the platform profile. -/
  | tis
  /-- The FIFO of the platform profile. -/
  | fifo
  | unsupported
  deriving DecidableEq, Repr

def InterfaceKind.name : InterfaceKind → String
  | .commandBuffer => "Crb"
  | .tis => "Tis"
  | .fifo => "Fifo"
  | .unsupported => "Unsupported"

/-- May a command buffer get a command without being sent to idle first? -/
inductive IdleBypass where
  | supported
  | notSupported
  /-- Firmware left the field undefined. -/
  | unknown
  deriving DecidableEq, Repr

namespace IdleBypass

/-- The meaning of the raw capability field. -/
def ofState (state : UInt8) : IdleBypass :=
  match state with
  | 0 => notSupported
  | 1 => supported
  | _ => unknown

def name : IdleBypass → String
  | supported => "Supported"
  | notSupported => "NotSupported"
  | unknown => "Unknown"

end IdleBypass

/-- An interface as it was found; the bypass has a meaning for a command buffer only. -/
structure Interface where
  kind : InterfaceKind
  idleBypass : IdleBypass
  deriving DecidableEq, Repr

/-- No chip, or none that is known. -/
def Interface.unsupported : Interface := ⟨.unsupported, .unknown⟩

end TpmLink
