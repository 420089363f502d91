/-!
# Byte strings and fixed-width numerals

Everything the chip sends or receives is a list of bytes. Structures put the high byte of a number
first; the bus and the firmware tables put the low byte first. Both layouts are given once, for any
number of bytes, and cut the number to that many bytes.
-/

namespace TpmLink

abbrev Bytes := List UInt8

/-- `width` bytes of `value`, high byte first. -/
def beBytes : Nat → Nat → Bytes
  | 0, _ => []
  | width + 1, value => UInt8.ofNat (value >>> (8 * width)) :: beBytes width value

/-- The number whose bytes these are, high byte first. -/
def beValue (bytes : Bytes) : Nat := bytes.foldl (fun high byte => high * 256 + byte.toNat) 0

/-- `width` bytes of `value`, low byte first. -/
def leBytes : Nat → Nat → Bytes
  | 0, _ => []
  | width + 1, value => UInt8.ofNat value :: leBytes width (value / 256)

/-- The number whose bytes these are, low byte first. -/
def leValue : Bytes → Nat
  | [] => 0
  | byte :: rest => byte.toNat + 256 * leValue rest

@[simp] theorem length_beBytes (width value : Nat) : (beBytes width value).length = width := by
  induction width <;> simp_all [beBytes]

@[simp] theorem length_leBytes (width value : Nat) : (leBytes width value).length = width := by
  induction width generalizing value <;> simp_all [leBytes]

/-- A 16-bit number on the wire. -/
def be16 (value : UInt16) : Bytes := beBytes 2 value.toNat

/-- A 32-bit number on the wire. -/
def be32 (value : UInt32) : Bytes := beBytes 4 value.toNat

@[simp] theorem length_be16 (value : UInt16) : (be16 value).length = 2 := length_beBytes 2 _
@[simp] theorem length_be32 (value : UInt32) : (be32 value).length = 4 := length_beBytes 4 _

/-- The `count` bytes that start at `offset`, fewer where the bytes end before. -/
def slice (bytes : Bytes) (offset count : Nat) : Bytes := (bytes.drop offset).take count

/-- A payload behind its 16-bit length. The length is cut to 16 bits, so a payload of 65536 bytes
and more does not fit its own prefix. -/
def sized (payload : Bytes) : Bytes := be16 (UInt16.ofNat payload.length) ++ payload

@[simp] theorem length_sized (payload : Bytes) :
    (sized payload).length = 2 + payload.length := by simp [sized]

end TpmLink
