import TpmLink.Wire.Header
import TpmLink.Wire.Public

/-!
# Encoding

Every structure as the bytes it is sent as. A selector stands in front of the fields it selects, and
a payload stands behind its length.
-/

namespace TpmLink

/-- The identifier on the wire. -/
def Algorithm.toBytes (algorithm : Algorithm) : Bytes := be16 algorithm.id

def SymmetricDef.toBytes : SymmetricDef → Bytes
  | .aes keyBits mode => Algorithm.aes.toBytes ++ be16 keyBits ++ be16 mode
  | .sm4 keyBits mode => Algorithm.sm4.toBytes ++ be16 keyBits ++ be16 mode
  | .xor hashAlg => Algorithm.xor.toBytes ++ be16 hashAlg
  | .null => Algorithm.null.toBytes

def KeyedHashScheme.toBytes : KeyedHashScheme → Bytes
  | .hmac hashAlg => Algorithm.hmac.toBytes ++ be16 hashAlg
  | .xor hashAlg kdf => Algorithm.xor.toBytes ++ be16 hashAlg ++ be16 kdf
  | .null => Algorithm.null.toBytes

def RsaScheme.toBytes : RsaScheme → Bytes
  | .rsaSsa hashAlg => Algorithm.rsaSsa.toBytes ++ be16 hashAlg
  | .rsaPss hashAlg => Algorithm.rsaPss.toBytes ++ be16 hashAlg
  | .rsaEs => Algorithm.rsaEs.toBytes
  | .oaep hashAlg => Algorithm.oaep.toBytes ++ be16 hashAlg
  | .null => Algorithm.null.toBytes

def EccScheme.toBytes : EccScheme → Bytes
  | .ecDsa hashAlg => Algorithm.ecDsa.toBytes ++ be16 hashAlg
  | .ecDaa hashAlg count => Algorithm.ecDaa.toBytes ++ be16 hashAlg ++ be16 count
  | .ecSchnorr hashAlg => Algorithm.ecSchnorr.toBytes ++ be16 hashAlg
  | .ecDh hashAlg => Algorithm.ecDh.toBytes ++ be16 hashAlg
  | .null => Algorithm.null.toBytes

def KdfScheme.toBytes : KdfScheme → Bytes
  | .mgf1 hashAlg => Algorithm.mgf1.toBytes ++ be16 hashAlg
  | .kdf1Sp800_56a hashAlg => Algorithm.kdf1Sp800_56a.toBytes ++ be16 hashAlg
  | .kdf2 hashAlg => Algorithm.kdf2.toBytes ++ be16 hashAlg
  | .kdf1Sp800_108 hashAlg => Algorithm.kdf1Sp800_108.toBytes ++ be16 hashAlg
  | .null => Algorithm.null.toBytes

def RsaParameters.toBytes (parameters : RsaParameters) : Bytes :=
  parameters.symmetric.toBytes ++ parameters.scheme.toBytes ++ be16 parameters.keyBits ++
    be32 parameters.exponent

def EccParameters.toBytes (parameters : EccParameters) : Bytes :=
  parameters.symmetric.toBytes ++ parameters.scheme.toBytes ++ be16 parameters.curveId ++
    parameters.kdf.toBytes

/-- Parameters first, then the public value. -/
def PublicDetails.toBytes : PublicDetails → Bytes
  | .keyedHash scheme unique => scheme.toBytes ++ sized unique
  | .symCipher symmetric unique => symmetric.toBytes ++ sized unique
  | .rsa parameters modulus => parameters.toBytes ++ sized modulus
  | .ecc parameters x y => parameters.toBytes ++ sized x ++ sized y

def PublicArea.toBytes (area : PublicArea) : Bytes :=
  area.algorithm.toBytes ++ be16 area.nameAlg ++ be32 area.attributes.bits ++
    sized area.authPolicy ++ area.details.toBytes

namespace SizedPublic

/-- The area with its own length, cut to 16 bits. -/
def ofArea (area : PublicArea) : SizedPublic := ⟨UInt16.ofNat area.toBytes.length, area⟩

/-- The stored size, whatever the length of the area, and the area. -/
def toBytes (sized : SizedPublic) : Bytes := be16 sized.size ++ sized.area.toBytes

end SizedPublic

namespace SizedName

/-- The name with its own length, cut to 16 bits. -/
def ofName (name : Bytes) : SizedName := ⟨UInt16.ofNat name.length, name⟩

/-- The empty name. -/
def empty : SizedName := ⟨0, []⟩

/-- The name behind its real length; the stored size is not used. -/
def toBytes (sizedName : SizedName) : Bytes := sized sizedName.name

end SizedName

/-- The ReadPublic command for a handle. -/
def readPublicCommand (handle : UInt32) : Bytes :=
  let unsized : Header := ⟨Header.noSessionsTag, 0, Header.readPublicCode⟩
  let length := (unsized.toBytes ++ be32 handle).length
  { unsized with length := UInt32.ofNat length }.toBytes ++ be32 handle

end TpmLink
