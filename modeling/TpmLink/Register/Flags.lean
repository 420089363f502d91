/-!
# Flag sets

A flag set is a 32-bit word in which only named bits may be one. The set of names is part of the
type, and the proof that no other bit is one is part of the value: every operation cuts its result
to the named bits.
-/

namespace TpmLink

/-- A named bit. -/
structure Flag where
  name : String
  bit : Nat
  deriving DecidableEq, Repr

def Flag.word (flag : Flag) : UInt32 := (1 : UInt32) <<< UInt32.ofNat flag.bit

/-- Ones in the bits of the flags. -/
def flagMask : List Flag → UInt32
  | [] => 0
  | flag :: rest => flag.word ||| flagMask rest

/-- A word in which no bit outside `known` is one. -/
structure FlagSet (known : List Flag) where
  bits : UInt32
  within : bits &&& flagMask known = bits

namespace FlagSet

variable {known : List Flag}

@[ext] theorem ext {a b : FlagSet known} (h : a.bits = b.bits) : a = b := by
  cases a; cases b; simp_all

instance : DecidableEq (FlagSet known) := fun a b =>
  if h : a.bits = b.bits then isTrue (FlagSet.ext h) else isFalse fun e => h (e ▸ rfl)

instance : Repr (FlagSet known) := ⟨fun a => reprPrec a.bits⟩

/-- Drop the bits without a name. -/
def truncate (word : UInt32) : FlagSet known where
  bits := word &&& flagMask known
  within := by rw [UInt32.and_assoc, UInt32.and_self]

@[simp] theorem truncate_bits (a : FlagSet known) : truncate a.bits = a := FlagSet.ext a.within

/-- Refuse a word with a bit that has no name. -/
def ofBits? (word : UInt32) : Option (FlagSet known) :=
  if h : word &&& flagMask known = word then some ⟨word, h⟩ else none

def empty : FlagSet known := truncate 0
def all : FlagSet known := truncate (flagMask known)
def union (a b : FlagSet known) : FlagSet known := truncate (a.bits ||| b.bits)
def inter (a b : FlagSet known) : FlagSet known := truncate (a.bits &&& b.bits)
def diff (a b : FlagSet known) : FlagSet known := truncate (a.bits &&& ~~~b.bits)

/-- The flags in exactly one of the two sets. -/
def toggle (a b : FlagSet known) : FlagSet known := truncate (a.bits ^^^ b.bits)

/-- The known flags that are not in the set. -/
def compl (a : FlagSet known) : FlagSet known := truncate (~~~a.bits)

/-- Is every flag of `b` in `a`? -/
def contains (a b : FlagSet known) : Bool := a.bits &&& b.bits == b.bits

/-- Do the two sets share a flag? -/
def intersects (a b : FlagSet known) : Bool := a.bits &&& b.bits != 0

def isEmpty (a : FlagSet known) : Bool := a == empty
def isAll (a : FlagSet known) : Bool := a == all

/-- The names of the set flags in the order of the flags, separated by bars. -/
def render (a : FlagSet known) : String :=
  match known.filter (fun flag => a.bits &&& flag.word != 0) with
  | [] => "(empty)"
  | shown => String.intercalate " | " (shown.map Flag.name)

end FlagSet

/-- Attributes of an object. -/
def objectFlags : List Flag :=
  [⟨"FIXED_TPM", 1⟩, ⟨"ST_CLEAR", 2⟩, ⟨"FIXED_PARENT", 4⟩, ⟨"SENSITIVE_DATA_ORIGIN", 5⟩,
    ⟨"USER_WITH_AUTH", 6⟩, ⟨"ADMIN_WITH_POLICY", 7⟩, ⟨"NO_DA", 10⟩,
    ⟨"ENCRYPTED_DUPLICATION", 11⟩, ⟨"RESTRICTED", 16⟩, ⟨"DECRYPT", 17⟩, ⟨"SIGN_ENCRYPT", 18⟩]

abbrev ObjectAttributes := FlagSet objectFlags

/-- What may be asked of the command buffer interface. -/
def requestFlags : List Flag := [⟨"CMD_READY", 0⟩, ⟨"GO_IDLE", 1⟩]

abbrev BufferRequest := FlagSet requestFlags

namespace BufferRequest

def commandReady : BufferRequest := FlagSet.truncate ((1 : UInt32) <<< 0)
def goIdle : BufferRequest := FlagSet.truncate ((1 : UInt32) <<< 1)

end BufferRequest

/-- What the command buffer interface reports. -/
def statusFlags : List Flag := [⟨"TPM_STS_ERROR", 0⟩, ⟨"TPM_IDLE", 1⟩]

abbrev BufferStatus := FlagSet statusFlags

namespace BufferStatus

def idle : BufferStatus := FlagSet.truncate ((1 : UInt32) <<< 1)

end BufferStatus

/-- Bit of the start register, written to run a command and cleared by the chip when it is done. -/
def startBit : UInt32 := (1 : UInt32) <<< 0

/-- Bit of the cancel register. -/
def cancelBit : UInt32 := (1 : UInt32) <<< 0

end TpmLink
