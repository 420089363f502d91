import TpmLink.Wire.Cursor
import TpmLink.Wire.Encoding

/-!
# Decoding

Readers for the structures that a ReadPublic response is made of. Each selector is read first and
decides what follows; a selector that is unknown or has no place there is refused. The public area
has to fill its payload completely, and the whole response has to be exactly as long as its header
declares.
-/

namespace TpmLink

open Reader (word16 word32 fail)

/-- A symmetric definition; only a symmetric object may name XOR. -/
def SymmetricDef.read (allowXor : Bool) : Reader SymmetricDef := do
  match ← Reader.algorithm with
  | .aes => return .aes (← word16) (← word16)
  | .sm4 => return .sm4 (← word16) (← word16)
  | .xor => if allowXor then return .xor (← word16) else fail (.misplaced .symmetric .xor)
  | .null => return .null
  | other => fail (.misplaced .symmetric other)

def KeyedHashScheme.read : Reader KeyedHashScheme := do
  match ← Reader.algorithm with
  | .hmac => return .hmac (← word16)
  | .xor => return .xor (← word16) (← word16)
  | .null => return .null
  | other => fail (.misplaced .keyedHashScheme other)

def RsaScheme.read : Reader RsaScheme := do
  match ← Reader.algorithm with
  | .rsaSsa => return .rsaSsa (← word16)
  | .rsaPss => return .rsaPss (← word16)
  | .rsaEs => return .rsaEs
  | .oaep => return .oaep (← word16)
  | .null => return .null
  | other => fail (.misplaced .rsaScheme other)

def EccScheme.read : Reader EccScheme := do
  match ← Reader.algorithm with
  | .ecDsa => return .ecDsa (← word16)
  | .ecDaa => return .ecDaa (← word16) (← word16)
  | .ecSchnorr => return .ecSchnorr (← word16)
  | .ecDh => return .ecDh (← word16)
  | .null => return .null
  | other => fail (.misplaced .eccScheme other)

def KdfScheme.read : Reader KdfScheme := do
  match ← Reader.algorithm with
  | .mgf1 => return .mgf1 (← word16)
  | .kdf1Sp800_56a => return .kdf1Sp800_56a (← word16)
  | .kdf2 => return .kdf2 (← word16)
  | .kdf1Sp800_108 => return .kdf1Sp800_108 (← word16)
  | .null => return .null
  | other => fail (.misplaced .kdfScheme other)

def RsaParameters.read : Reader RsaParameters := do
  let symmetric ← SymmetricDef.read false
  let scheme ← RsaScheme.read
  let keyBits ← word16
  let exponent ← word32
  return { symmetric, scheme, keyBits, exponent }

def EccParameters.read : Reader EccParameters := do
  let symmetric ← SymmetricDef.read false
  let scheme ← EccScheme.read
  let curveId ← word16
  let kdf ← KdfScheme.read
  return { symmetric, scheme, curveId, kdf }

/-- The parameters and the public value of an object of the given type. -/
def PublicDetails.read (objectType : Algorithm) : Reader PublicDetails := do
  match objectType with
  | .keyedHash => return .keyedHash (← KeyedHashScheme.read) (← Reader.sized maxDigest)
  | .symCipher => return .symCipher (← SymmetricDef.read true) (← Reader.sized maxDigest)
  | .rsa => return .rsa (← RsaParameters.read) (← Reader.sized maxRsaKey)
  | .ecc =>
    return .ecc (← EccParameters.read) (← Reader.sized maxEccKey) (← Reader.sized maxEccKey)
  | other => fail (.misplaced .objectType other)

/-- A public area that reaches to the end of the bytes. Attributes without a name are dropped. -/
def PublicArea.read : Reader PublicArea := do
  let objectType ← Reader.algorithm
  let nameAlg ← word16
  let attributes := FlagSet.truncate (← word32)
  let authPolicy ← Reader.sized maxDigest
  let details ← PublicDetails.read objectType
  let left ← Reader.remaining
  if left = 0 then return { nameAlg, attributes, authPolicy, details }
  else fail (.stray left)

def SizedName.read : Reader SizedName := do return SizedName.ofName (← Reader.sized maxName)

namespace ReadPublic

/-- What follows the header of a response. -/
def readBody : Reader ReadPublic := do
  let inner ← Reader.sub maxPublicArea
  let area ← Reader.within inner PublicArea.read
  let name ← SizedName.read
  let qualifiedName ← SizedName.read
  return { outPublic := ⟨UInt16.ofNat inner.remaining, area⟩, name, qualifiedName }

/-- The header of a response that carries a result. Anything but success is a failure of the
command; a sequence object is a failure of its own, since there the caller is at fault. -/
def responseHeader (response : Bytes) : Except Malformed Header :=
  match Header.ofBytes? response with
  | none => .error (.noHeader response.length)
  | some header =>
    if header.length.toNat < Header.size then .error (.shortLength header.length)
    else if header.code = Header.successCode then .ok header
    else if header.code = Header.sequenceCode then .error .sequenceObject
    else .error (.refused header.code)

/-- A complete response, header included. -/
def ofResponse (response : Bytes) : Except Malformed ReadPublic := do
  let header ← responseHeader response
  let reader : Reader ReadPublic := do
    let _ ← Reader.bytes Header.size
    readBody
  let (result, cursor) := reader (Cursor.ofBytes response)
  let value ← result
  if cursor.position = header.length.toNat ∧ cursor.isEmpty then .ok value
  else .error (.lengthMismatch cursor.position header.length response.length)

end ReadPublic

end TpmLink
