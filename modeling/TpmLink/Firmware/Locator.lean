import TpmLink.Effects
import TpmLink.Register.Address

/-!
# Where the chip is

A locator answers with the base address of the register page, and may say which start method
firmware declares. The declaration is a hint: the chip's own registers decide.
-/

namespace TpmLink

/-- Read the firmware table in these bytes and report what it says. -/
def FirmwareTable.load {m : Type → Type} [Monad m] [Journal m] (raw : Bytes) :
    m (Except LocateFault FirmwareTable) :=
  match FirmwareTable.parse raw with
  | .error fault => return .error fault
  | .ok table => do
    note (.firmwareTable table)
    return .ok table

structure Locator where
  base : Except LocateFault Nat
  declared : Option StartMethod
  deriving Repr

namespace Locator

/-- Always the same address, and no declaration. -/
def fixed (base : Nat) : Locator := ⟨.ok base, none⟩

/-- The address of the page on PC platforms. -/
def default : Locator := fixed defaultBase

/-- No address, for the given reason, and no declaration. -/
def failing (fault : LocateFault) : Locator := ⟨.error fault, none⟩

/-- The control area of a firmware table; address zero means that there is no chip. -/
def ofTable (table : FirmwareTable) : Locator where
  base := if table.controlArea = 0 then .error .notFound else .ok table.controlArea.toNat
  declared := table.method?

/-- The locator over the table in these bytes. -/
def load {m : Type → Type} [Monad m] [Journal m] (raw : Bytes) :
    m (Except LocateFault Locator) := do
  return (← FirmwareTable.load raw).map ofTable

end Locator

end TpmLink
