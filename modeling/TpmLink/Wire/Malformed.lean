import TpmLink.Failure
import TpmLink.Text.Hex
import TpmLink.Wire.Algorithm

/-!
# What is wrong with a response

The causes for which a response is refused, each with the numbers that belong to it. Bytes that are
missing, left over or counted wrongly blame the chip, an algorithm without a place is not supported,
and only a header that is not there or too short blames the buffer.
-/

namespace TpmLink

/-- A place in a structure where only some algorithms are allowed. -/
inductive Selector where
  | symmetric
  | keyedHashScheme
  | rsaScheme
  | eccScheme
  | kdfScheme
  | objectType
  deriving DecidableEq, Repr

def Selector.name : Selector → String
  | .symmetric => "symmetric algorithm"
  | .keyedHashScheme => "keyed hash scheme"
  | .rsaScheme => "RSA scheme"
  | .eccScheme => "ECC scheme"
  | .kdfScheme => "KDF scheme"
  | .objectType => "object type"

/-- What is wrong with a response. -/
inductive Malformed where
  /-- Fewer bytes are left than are needed. -/
  | truncated (needed offset left : Nat)
  /-- The length in front of a payload, at `offset`, exceeds the largest allowed. -/
  | oversized (size offset max : Nat)
  | unknownAlgorithm (id : UInt16)
  /-- A known algorithm in a place where it is not allowed. -/
  | misplaced (selector : Selector) (algorithm : Algorithm)
  /-- Bytes are left behind the end of the public area. -/
  | stray (left : Nat)
  /-- There are fewer bytes than a header has. -/
  | noHeader (length : Nat)
  /-- The header declares a length that does not cover the header itself. -/
  | shortLength (declared : UInt32)
  /-- The handle of the command names a sequence object. -/
  | sequenceObject
  /-- The chip answered with an error. -/
  | refused (code : UInt32)
  /-- The bytes read, the declared length and the real length are not all the same. -/
  | lengthMismatch (consumed : Nat) (declared : UInt32) (held : Nat)
  deriving DecidableEq, Repr

namespace Malformed

/-- The failure that the caller of a command sees. -/
def failure : Malformed → Failure
  | truncated .. | oversized .. | stray .. | refused .. | lengthMismatch .. => .deviceBusy
  | unknownAlgorithm .. | misplaced .. => .notSupported
  | noHeader .. | shortLength .. => .bufferTooSmall
  | sequenceObject => .invalidParameter

def message : Malformed → String
  | truncated needed offset left =>
    "response truncated: need " ++ toString needed ++ " bytes at offset " ++ toString offset ++
      ", have " ++ toString left
  | oversized size offset max =>
    "size prefix " ++ toString size ++ " at offset " ++ toString offset ++ " exceeds " ++
      toString max
  | unknownAlgorithm id => "unknown algorithm " ++ Hex.padded 4 id.toNat
  | misplaced selector algorithm => algorithm.name ++ " is not a valid " ++ selector.name
  | stray left => toString left ++ " stray bytes after the public area"
  | noHeader length => "response of " ++ toString length ++ " bytes has no complete header"
  | shortLength declared =>
    "response declares " ++ toString declared.toNat ++ " bytes, less than a header"
  | sequenceObject => "handle references a sequence object"
  | refused code => "TPM returned with error " ++ Hex.padded 8 code.toNat
  | lengthMismatch consumed declared held =>
    "ReadPublic consumed " ++ toString consumed ++ " bytes, response declares " ++
      toString declared.toNat ++ " and holds " ++ toString held

end Malformed

end TpmLink
