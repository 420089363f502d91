import TpmLink.Bytes
import TpmLink.Failure

/-!
# Width of a bus access

An access moves one, two, four or eight bytes, low byte first. `encode` lays a value into the front
of a buffer and `decode` reads it back; both ask for a buffer of at least `bytes` bytes.
-/

namespace TpmLink

inductive Width where
  | byte
  | word
  | dword
  | qword
  deriving DecidableEq, Repr

namespace Width

/-- Number of bytes moved. -/
def bytes : Width → Nat
  | byte => 1
  | word => 2
  | dword => 4
  | qword => 8

/-- The width of so many bytes. -/
def ofBytes (count : Nat) : Except BusFault Width :=
  match count with
  | 1 => .ok byte
  | 2 => .ok word
  | 4 => .ok dword
  | 8 => .ok qword
  | _ => .error (.badWidth count)

/-- Ones in the bits that an access of this width carries. -/
def mask : Width → UInt64
  | qword => 0xFFFFFFFFFFFFFFFF
  | width => (1 <<< UInt64.ofNat (8 * width.bytes)) - 1

/-- Is `addr` a multiple of the width? -/
def isAligned (width : Width) (addr : Nat) : Bool := addr % width.bytes == 0

/-- Lay `value`, cut to the width, into the front of `buffer`. `none` if the buffer is too short. -/
def encode? (width : Width) (value : UInt64) (buffer : Bytes) : Option Bytes :=
  if buffer.length < width.bytes then none
  else some (leBytes width.bytes (value &&& width.mask).toNat ++ buffer.drop width.bytes)

/-- The value at the front of `buffer`. `none` if the buffer is too short. -/
def decode? (width : Width) (buffer : Bytes) : Option UInt64 :=
  if buffer.length < width.bytes then none
  else some (UInt64.ofNat (leValue (buffer.take width.bytes)))

end Width

end TpmLink
