import TpmLink.Bytes

/-!
# Headers

Every command and every response starts with ten bytes: a 16-bit tag, the 32-bit length of the whole
message and a 32-bit code, which is the command code one way and the response code the other.
-/

namespace TpmLink

structure Header where
  tag : UInt16
  length : UInt32
  code : UInt32
  deriving DecidableEq, Repr

namespace Header

/-- Bytes of a header. -/
def size : Nat := 10

/-- Tag of a response in the format of version 1.2. -/
def legacyTag : UInt16 := 0x00C4

/-- Tag of a command without sessions. -/
def noSessionsTag : UInt16 := 0x8001

/-- Tag of a command with sessions. -/
def sessionsTag : UInt16 := 0x8002

/-- Command code of ReadPublic. -/
def readPublicCode : UInt32 := 0x0173

def successCode : UInt32 := 0x0000

/-- Response code for a handle that names a sequence object. -/
def sequenceCode : UInt32 := 0x0103

def toBytes (header : Header) : Bytes :=
  be16 header.tag ++ be32 header.length ++ be32 header.code

/-- The header at the front of `bytes`. `none` if there are fewer than ten. -/
def ofBytes? (bytes : Bytes) : Option Header :=
  if bytes.length < size then none
  else some {
    tag := UInt16.ofNat (beValue (slice bytes 0 2))
    length := UInt32.ofNat (beValue (slice bytes 2 4))
    code := UInt32.ofNat (beValue (slice bytes 6 4)) }

@[simp] theorem length_toBytes (header : Header) : header.toBytes.length = size := by
  simp [toBytes, size]

end Header

end TpmLink
