import TpmLink.Client
import TpmLink.Transport.CommandBuffer
import TpmLink.Transport.Fifo

/-!
# The transport for an interface

A link moves one command to the chip and its response back. It is built for an interface once and
keeps it.
-/

namespace TpmLink

/-- One of the two ways to move a command. -/
inductive Link where
  | commandBuffer (link : CommandBuffer)
  | fifo (link : Fifo)
  deriving DecidableEq, Repr

namespace Link

/-- The way that an interface at an address asks for. The FIFO of the platform profile is used like
the older one. -/
def ofInterface (base : Nat) (interface : Interface) (config : Config) : Except Failure Link :=
  match interface.kind with
  | .commandBuffer => .ok (.commandBuffer ⟨base, interface.idleBypass, config.commandBuffer⟩)
  | .tis | .fifo => .ok (.fifo ⟨base, config.fifo⟩)
  | .unsupported => .error .notConnected

/-- Run one command. The response is never longer than `maxResponse`. -/
def execute : Link → Bytes → Nat → Script Bytes
  | commandBuffer link => link.execute
  | fifo link => link.execute

/-- The client over a link. -/
def client (link : Link) (maxResponse : Nat) : Client Script := ⟨link.execute, maxResponse⟩

end Link

end TpmLink
