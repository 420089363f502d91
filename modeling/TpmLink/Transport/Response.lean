import TpmLink.Script
import TpmLink.Wire.Header

/-!
# Response headers on the way in

A transport reads the header of a response first. The tag has to be one of version 2.0, and the
declared size has to fit the capacity. A size below that of a header is let through; whoever decodes
the response judges it.
-/

namespace TpmLink

/-- Why a response is not read past its header. -/
inductive ResponseRefusal where
  /-- There are fewer bytes than a header has. -/
  | noHeader
  /-- The tag is the one of version 1.2. -/
  | legacy (tag : UInt16)
  | tooLong (size capacity : Nat)
  deriving DecidableEq, Repr

def ResponseRefusal.failure : ResponseRefusal → Failure
  | .noHeader => .bufferTooSmall
  | .legacy _ => .notSupported
  | .tooLong _ _ => .bufferTooSmall

/-- What is reported; a missing header is left to the caller. -/
def ResponseRefusal.notice? : ResponseRefusal → Option Notice
  | .noHeader => none
  | .legacy tag => some (.legacyResponse tag)
  | .tooLong size capacity => some (.responseTooLong size capacity)

/-- The header's tag and the size of the whole response, if it may be read. -/
def judgeResponse (header : Bytes) (capacity : Nat) : Except ResponseRefusal (UInt16 × Nat) :=
  if header.length < Header.size then .error .noHeader
  else
    let tag := UInt16.ofNat (beValue (slice header 0 2))
    let size := beValue (slice header 2 4)
    if tag = Header.legacyTag then .error (.legacy tag)
    else if capacity < size then .error (.tooLong size capacity)
    else .ok (tag, size)

/-- The size of the whole response. -/
def acceptResponse (header : Bytes) (capacity : Nat) : Script Nat :=
  match judgeResponse header capacity with
  | .ok (tag, size) => do
    note (.responseAccepted tag size)
    return size
  | .error refusal => do
    match refusal.notice? with
    | some notice => note notice
    | none => pure ()
    throw refusal.failure

end TpmLink
