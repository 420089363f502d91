import TpmLink.Text.Hex

/-!
# Named bit fields of a register

A register layout names ranges of bits, in the order in which they are shown. A range of one bit is
a flag and shows as a truth value; a longer range shows as a number. Some flags can be set.
-/

namespace TpmLink.Register

/-- How a field reads. -/
inductive Extent where
  /-- One bit; `writable` ones have a setter. -/
  | flag (bit : Nat) (writable : Bool)
  /-- The bits from `high` down to `low`. -/
  | range (high low : Nat)
  deriving DecidableEq, Repr

structure Field where
  name : String
  extent : Extent
  deriving DecidableEq, Repr

/-- What a field holds. -/
inductive Reading where
  | truth (value : Bool)
  | number (value : UInt32)
  deriving DecidableEq, Repr

namespace Field

/-- A flag that can be read only. -/
def flag (name : String) (bit : Nat) : Field := ⟨name, .flag bit false⟩

/-- A flag that can also be set. -/
def control (name : String) (bit : Nat) : Field := ⟨name, .flag bit true⟩

def range (name : String) (high low : Nat) : Field := ⟨name, .range high low⟩

/-- The bits of the field, moved down to bit 0. -/
def bits (field : Field) (word : UInt32) : UInt32 :=
  match field.extent with
  | .flag bit _ => word >>> UInt32.ofNat bit &&& 1
  | .range high low =>
    word >>> UInt32.ofNat low &&& ((1 : UInt32) <<< UInt32.ofNat (high + 1 - low)) - 1

/-- Is any bit of the field set? -/
def isSet (field : Field) (word : UInt32) : Bool := field.bits word != 0

def read (field : Field) (word : UInt32) : Reading :=
  match field.extent with
  | .flag _ _ => .truth (field.isSet word)
  | .range _ _ => .number (field.bits word)

/-- The word with the flag set or cleared. A field without a setter leaves the word as it is. -/
def set (field : Field) (value : Bool) (word : UInt32) : UInt32 :=
  match field.extent with
  | .flag bit true =>
    let mask := (1 : UInt32) <<< UInt32.ofNat bit
    if value then word ||| mask else word &&& ~~~mask
  | _ => word

end Field

/-- A register with its fields in the order in which they are shown. -/
structure Layout where
  name : String
  fields : List Field
  deriving DecidableEq, Repr

namespace Layout

/-- The text of a reading with numbers in base ten or, without a mark, in base sixteen. -/
def showReading (hex : Bool) : Reading → String
  | .truth value => if value then "true" else "false"
  | .number value => showNumber hex value.toNat
where
  showNumber (hex : Bool) (n : Nat) : String := if hex then Hex.digits n else toString n

/-- The register's name, the raw word and then every field with its reading, in braces. -/
def render (layout : Layout) (hex : Bool) (word : UInt32) : String :=
  let entries := layout.fields.map fun field =>
    field.name ++ ": " ++ showReading hex (field.read word)
  let raw := ".0: " ++ showReading hex (.number word)
  layout.name ++ " \x7b " ++ String.intercalate ", " (raw :: entries) ++ " \x7d"

/-- The field of that name. -/
def find? (layout : Layout) (name : String) : Option Field :=
  layout.fields.find? (·.name == name)

end Layout

end TpmLink.Register
