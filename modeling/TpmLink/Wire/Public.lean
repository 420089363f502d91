import TpmLink.Bytes
import TpmLink.Register.Flags
import TpmLink.Wire.Algorithm

/-!
# Public areas and names

The public part of an object: what kind of key it is, with which schemes, and its public value. Hash
algorithms, key sizes and modes are kept as the numbers that were read; only the selectors, which
decide the shape, are interpreted.
-/

namespace TpmLink

/-- Symmetric definition of an object. -/
inductive SymmetricDef where
  | aes (keyBits mode : UInt16)
  | sm4 (keyBits mode : UInt16)
  /-- Allowed in a symmetric object only. -/
  | xor (hashAlg : UInt16)
  | null
  deriving DecidableEq, Repr

inductive KeyedHashScheme where
  | hmac (hashAlg : UInt16)
  | xor (hashAlg kdf : UInt16)
  | null
  deriving DecidableEq, Repr

inductive RsaScheme where
  | rsaSsa (hashAlg : UInt16)
  | rsaPss (hashAlg : UInt16)
  | rsaEs
  | oaep (hashAlg : UInt16)
  | null
  deriving DecidableEq, Repr

inductive EccScheme where
  | ecDsa (hashAlg : UInt16)
  | ecDaa (hashAlg count : UInt16)
  | ecSchnorr (hashAlg : UInt16)
  | ecDh (hashAlg : UInt16)
  | null
  deriving DecidableEq, Repr

/-- Key derivation scheme. -/
inductive KdfScheme where
  | mgf1 (hashAlg : UInt16)
  | kdf1Sp800_56a (hashAlg : UInt16)
  | kdf2 (hashAlg : UInt16)
  | kdf1Sp800_108 (hashAlg : UInt16)
  | null
  deriving DecidableEq, Repr

structure RsaParameters where
  symmetric : SymmetricDef
  scheme : RsaScheme
  keyBits : UInt16
  /-- Zero stands for the default exponent 2^16 + 1. -/
  exponent : UInt32
  deriving DecidableEq, Repr

structure EccParameters where
  symmetric : SymmetricDef
  scheme : EccScheme
  curveId : UInt16
  kdf : KdfScheme
  deriving DecidableEq, Repr

/-- Parameters together with the public value they belong to. -/
inductive PublicDetails where
  | keyedHash (scheme : KeyedHashScheme) (unique : Bytes)
  | symCipher (symmetric : SymmetricDef) (unique : Bytes)
  | rsa (parameters : RsaParameters) (modulus : Bytes)
  | ecc (parameters : EccParameters) (x y : Bytes)
  deriving DecidableEq, Repr

/-- The object type that the details belong to. -/
def PublicDetails.algorithm : PublicDetails → Algorithm
  | .keyedHash .. => .keyedHash
  | .symCipher .. => .symCipher
  | .rsa .. => .rsa
  | .ecc .. => .ecc

structure PublicArea where
  nameAlg : UInt16
  attributes : ObjectAttributes
  authPolicy : Bytes
  details : PublicDetails
  deriving DecidableEq, Repr

def PublicArea.algorithm (area : PublicArea) : Algorithm := area.details.algorithm

/-- A public area behind its length, as it is carried in messages. -/
structure SizedPublic where
  size : UInt16
  area : PublicArea
  deriving DecidableEq, Repr

/-- The name of an object behind its length. -/
structure SizedName where
  size : UInt16
  name : Bytes
  deriving DecidableEq, Repr

/-- What ReadPublic returns. -/
structure ReadPublic where
  outPublic : SizedPublic
  name : SizedName
  qualifiedName : SizedName
  deriving DecidableEq, Repr

/-! ### Largest payloads -/

/-- A SHA-512 digest. -/
def maxDigest : Nat := 64

/-- A digest behind its algorithm identifier. -/
def maxName : Nat := 2 + maxDigest

def maxRsaKey : Nat := 512

/-- One coordinate on the curve P-521. -/
def maxEccKey : Nat := 66

/-- Longest parameters, those of an ECC key with the ECDAA scheme. -/
def maxParameters : Nat := 20

/-- Longest public area, that of an RSA key of the largest size. -/
def maxPublicArea : Nat := 2 * 2 + 4 + 2 + maxDigest + maxParameters + 2 + maxRsaKey

end TpmLink
