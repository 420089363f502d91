import TpmLink.Bytes
import TpmLink.Wire.Malformed

/-!
# Reading a structure

A cursor holds the bytes that are still to be read and how many were read before them. A reader
moves a cursor over what it reads and either yields a value or says what is wrong with the bytes. It
never reads past the end, and checks the length in front of a payload against the largest allowed
before it touches the payload. After a failure the cursor stands where reading stopped.
-/

namespace TpmLink

structure Cursor where
  /-- Bytes that were read. -/
  position : Nat
  /-- Bytes that are still to be read. -/
  rest : Bytes
  deriving DecidableEq, Repr

namespace Cursor

/-- At the start of the bytes. -/
def ofBytes (bytes : Bytes) : Cursor := ⟨0, bytes⟩

def remaining (cursor : Cursor) : Nat := cursor.rest.length
def isEmpty (cursor : Cursor) : Bool := cursor.rest.isEmpty

end Cursor

/-- A computation that reads from a cursor. -/
def Reader (α : Type) : Type := Cursor → Except Malformed α × Cursor

namespace Reader

variable {α β : Type}

def pure (value : α) : Reader α := fun cursor => (.ok value, cursor)

/-- Read with the second reader what the first one left; a failure stops where it stands. -/
def bind (reader : Reader α) (next : α → Reader β) : Reader β := fun cursor =>
  match reader cursor with
  | (.ok value, after) => next value after
  | (.error cause, after) => (.error cause, after)

instance : Monad Reader where
  pure := Reader.pure
  bind := Reader.bind

def fail (cause : Malformed) : Reader α := fun cursor => (.error cause, cursor)

/-- The next `count` bytes. -/
def bytes (count : Nat) : Reader Bytes := fun cursor =>
  if cursor.remaining < count then
    (.error (.truncated count cursor.position cursor.remaining), cursor)
  else (.ok (cursor.rest.take count), ⟨cursor.position + count, cursor.rest.drop count⟩)

def byte : Reader UInt8 := do return UInt8.ofNat (beValue (← bytes 1))
def word16 : Reader UInt16 := do return UInt16.ofNat (beValue (← bytes 2))
def word32 : Reader UInt32 := do return UInt32.ofNat (beValue (← bytes 4))

/-- The position of the cursor. -/
def position : Reader Nat := fun cursor => (.ok cursor.position, cursor)

/-- How many bytes are left. -/
def remaining : Reader Nat := fun cursor => (.ok cursor.remaining, cursor)

/-- A payload of at most `max` bytes behind its 16-bit length. -/
def sized (max : Nat) : Reader Bytes := do
  let size := (← word16).toNat
  if max < size then
    fail (.oversized size ((← position) - 2) max)
  else bytes size

/-- A known algorithm. -/
def algorithm : Reader Algorithm := do
  let id ← word16
  match Algorithm.ofId? id with
  | some algorithm => return algorithm
  | none => fail (.unknownAlgorithm id)

/-- A cursor over a payload of at most `max` bytes. -/
def sub (max : Nat) : Reader Cursor := do return Cursor.ofBytes (← sized max)

/-- Read a payload of its own: offsets count from its start, and the outer cursor already stands
behind it, whatever the inner reader does. -/
def within (inner : Cursor) (reader : Reader α) : Reader α := fun cursor =>
  ((reader inner).1, cursor)

end Reader

end TpmLink
