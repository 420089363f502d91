import TpmLink.Client
import TpmLink.Firmware.Locator
import TpmLink.Selection
import TpmLink.Transport.Link

/-!
# Connections

A connection is the link to a chip together with the interface it was built for. It is either built
for an interface that is known already, or established by finding the chip and asking its registers.
-/

namespace TpmLink

structure Connection where
  interface : Interface
  link : Link
  /-- Capacity offered for each response. -/
  maxResponse : Nat
  deriving DecidableEq, Repr

namespace Connection

/-- The connection to a chip with that interface. -/
def ofInterface (base : Nat) (interface : Interface) (config : Config) :
    Except Failure Connection := do
  let link ← Link.ofInterface base interface config
  return { interface, link, maxResponse := config.maxResponse }

/-- Any interface that is known can be connected to. -/
theorem exists_ofInterface (base : Nat) {interface : Interface} (config : Config)
    (hkind : interface.kind ≠ .unsupported) :
    ∃ connection, ofInterface base interface config = .ok connection ∧
      connection.maxResponse = config.maxResponse := by
  obtain ⟨kind, idleBypass⟩ := interface
  cases kind with
  | unsupported => exact absurd rfl hkind
  | _ => exact ⟨_, rfl, rfl⟩

/-- The client over a connection. -/
def client (connection : Connection) : Client Script :=
  connection.link.client connection.maxResponse

/-- Report a start method that does not go with the interface that was found. -/
def compare (declared : Option StartMethod) (found : InterfaceKind) : Script Unit :=
  match declared with
  | none => return ()
  | some method =>
    if method.isCommandBuffer = (found == .commandBuffer) then return ()
    else note (.declarationDiffers method found)

/-- Find the chip, select its interface and connect to it. What firmware declares is only compared
with what was found. -/
def establish (locator : Locator) (config : Config) : Script Connection :=
  match locator.base with
  | .error fault => do
    note (.notLocated fault)
    throw .notConnected
  | .ok base => do
    let interface ← Selection.select base
    compare locator.declared interface.kind
    match ofInterface base interface config with
    | .error failure => throw failure
    | .ok connection =>
      note (.opened base interface.kind)
      return connection

end Connection

end TpmLink
