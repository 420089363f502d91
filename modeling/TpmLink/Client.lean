import TpmLink.Effects
import TpmLink.Wire.Decoding

/-!
# Clients

A client sends commands over a transport, one at a time, and decodes what comes back. It can be put
on anything that moves a command and its response.
-/

namespace TpmLink

/-- A transport, and the capacity it is offered for each response. -/
structure Client (m : Type → Type) where
  /-- Move a command to the chip and its response, of at most so many bytes, back. -/
  execute : Bytes → Nat → m Bytes
  maxResponse : Nat

namespace Client

variable {m : Type → Type}

/-- Send a complete command and return the response as it came. -/
def submit (client : Client m) (command : Bytes) : m Bytes :=
  client.execute command client.maxResponse

/-- Decode a ReadPublic response and report how that went. -/
def decode [Monad m] [MonadExceptOf Failure m] [Journal m] (response : Bytes) : m ReadPublic :=
  match ReadPublic.ofResponse response with
  | .ok value => do
    note (.decoded value.outPublic.area.algorithm value.name.size)
    return value
  | .error cause => cause.raise

/-- Read the public area and the names of a loaded object. -/
def readPublic [Monad m] [MonadExceptOf Failure m] [Journal m] (client : Client m)
    (handle : UInt32) : m ReadPublic := do
  decode (← client.submit (readPublicCommand handle))

end Client

end TpmLink
