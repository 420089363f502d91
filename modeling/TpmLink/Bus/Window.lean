import TpmLink.Bus.Width
import TpmLink.Notice

/-!
# A mapped register window

Registers that are mapped into memory: an address inside the window stands for the cell at the
same distance from its start. An aligned access moves its bytes at once, eight of them as two halves
with the low one first; an access that is not aligned moves them one by one. Either way the bytes
are those at the address and behind it, low byte first.
-/

namespace TpmLink

structure Window where
  base : Nat
  cells : Array UInt8
  deriving DecidableEq, Repr

namespace Window

/-- The distance of an access from the start, if the access lies wholly inside the window. -/
def locate (window : Window) (addr : Nat) (width : Width) : Except BusFault Nat :=
  if addr < window.base then .error (.outOfRange addr)
  else
    let offset := addr - window.base
    if offset + width.bytes ≤ window.cells.size then .ok offset
    else .error (.outOfRange addr)

/-- `count` cells from `offset` on. -/
def loadCells (cells : Array UInt8) (offset : Nat) : Nat → Bytes
  | 0 => []
  | count + 1 => cells.getD offset 0 :: loadCells cells (offset + 1) count

/-- The cells with the bytes put in from `offset` on. -/
def storeCells (cells : Array UInt8) (offset : Nat) : Bytes → Array UInt8
  | [] => cells
  | byte :: rest => storeCells (cells.setIfInBounds offset byte) (offset + 1) rest

/-- The cells from `offset` on as one number. -/
def loadNumber (cells : Array UInt8) (offset count : Nat) : UInt64 :=
  UInt64.ofNat (leValue (loadCells cells offset count))

/-- The cells with the low bytes of a number put in from `offset` on. -/
def storeNumber (cells : Array UInt8) (offset count : Nat) (value : UInt64) : Array UInt8 :=
  storeCells cells offset (leBytes count value.toNat)

/-- An aligned load. -/
def loadAligned (cells : Array UInt8) (offset : Nat) : Width → UInt64
  | .qword => loadNumber cells (offset + 4) 4 <<< 32 ||| loadNumber cells offset 4
  | width => loadNumber cells offset width.bytes

/-- An aligned store. -/
def storeAligned (cells : Array UInt8) (offset : Nat) (value : UInt64) : Width → Array UInt8
  | .qword => storeNumber (storeNumber cells offset 4 value) (offset + 4) 4 (value >>> 32)
  | width => storeNumber cells offset width.bytes value

/-- A load byte by byte, through a buffer of the width's own size. -/
def loadBytewise (cells : Array UInt8) (offset : Nat) (width : Width) : UInt64 :=
  (width.decode? (loadCells cells offset width.bytes)).getD 0

/-- A store byte by byte, through a buffer of the width's own size. -/
def storeBytewise (cells : Array UInt8) (offset : Nat) (value : UInt64) (width : Width) :
    Array UInt8 :=
  storeCells cells offset ((width.encode? value (List.replicate width.bytes 0)).getD [])

/-- The value at an address. -/
def read (window : Window) (addr : Nat) (width : Width) : Except BusFault UInt64 := do
  let offset ← window.locate addr width
  return if width.isAligned addr then loadAligned window.cells offset width
  else loadBytewise window.cells offset width

/-- The window with a value put in at an address. -/
def write (window : Window) (addr : Nat) (width : Width) (value : UInt64) :
    Except BusFault Window := do
  let offset ← window.locate addr width
  let cells := if width.isAligned addr then storeAligned window.cells offset value width
    else storeBytewise window.cells offset value width
  return { window with cells }

/-- What a read reports: nothing when it fails. -/
def readNotices (addr : Nat) (width : Width) : Except BusFault UInt64 → List Notice
  | .ok value => [.windowRead addr width.bytes value]
  | .error _ => []

/-- What a write reports, with the value as it was given. -/
def writeNotices (addr : Nat) (width : Width) (value : UInt64) :
    Except BusFault Window → List Notice
  | .ok _ => [.windowWrite addr width.bytes value]
  | .error _ => []

end Window

end TpmLink
