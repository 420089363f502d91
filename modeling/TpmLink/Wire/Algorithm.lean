/-!
# Algorithm identifiers

The 16-bit identifiers of algorithms and object types that this library knows, with their names in
the structure tables of the specification.
-/

namespace TpmLink

inductive Algorithm where
  | error
  | rsa
  | sha1
  | hmac
  | aes
  | mgf1
  | keyedHash
  | xor
  | sha256
  | sha384
  | sha512
  | null
  | sm3_256
  | sm4
  | rsaSsa
  | rsaEs
  | rsaPss
  | oaep
  | ecDsa
  | ecDh
  | ecDaa
  | sm2
  | ecSchnorr
  | kdf1Sp800_56a
  | kdf2
  | kdf1Sp800_108
  | ecc
  | symCipher
  | ctr
  | ofb
  | cbc
  | cfb
  | ecb
  deriving DecidableEq, Repr

namespace Algorithm

def id : Algorithm → UInt16
  | error => 0x0000
  | rsa => 0x0001
  | sha1 => 0x0004
  | hmac => 0x0005
  | aes => 0x0006
  | mgf1 => 0x0007
  | keyedHash => 0x0008
  | xor => 0x000A
  | sha256 => 0x000B
  | sha384 => 0x000C
  | sha512 => 0x000D
  | null => 0x0010
  | sm3_256 => 0x0012
  | sm4 => 0x0013
  | rsaSsa => 0x0014
  | rsaEs => 0x0015
  | rsaPss => 0x0016
  | oaep => 0x0017
  | ecDsa => 0x0018
  | ecDh => 0x0019
  | ecDaa => 0x001A
  | sm2 => 0x001B
  | ecSchnorr => 0x001C
  | kdf1Sp800_56a => 0x0020
  | kdf2 => 0x0021
  | kdf1Sp800_108 => 0x0022
  | ecc => 0x0023
  | symCipher => 0x0025
  | ctr => 0x0040
  | ofb => 0x0041
  | cbc => 0x0042
  | cfb => 0x0043
  | ecb => 0x0044

def name : Algorithm → String
  | error => "TPM_ALG_ERROR"
  | rsa => "TPM_ALG_RSA"
  | sha1 => "TPM_ALG_SHA1"
  | hmac => "TPM_ALG_HMAC"
  | aes => "TPM_ALG_AES"
  | mgf1 => "TPM_ALG_MGF1"
  | keyedHash => "TPM_ALG_KEYEDHASH"
  | xor => "TPM_ALG_XOR"
  | sha256 => "TPM_ALG_SHA256"
  | sha384 => "TPM_ALG_SHA384"
  | sha512 => "TPM_ALG_SHA512"
  | null => "TPM_ALG_NULL"
  | sm3_256 => "TPM_ALG_SM3_256"
  | sm4 => "TPM_ALG_SM4"
  | rsaSsa => "TPM_ALG_RSASSA"
  | rsaEs => "TPM_ALG_RSAES"
  | rsaPss => "TPM_ALG_RSAPSS"
  | oaep => "TPM_ALG_OAEP"
  | ecDsa => "TPM_ALG_ECDSA"
  | ecDh => "TPM_ALG_ECDH"
  | ecDaa => "TPM_ALG_ECDAA"
  | sm2 => "TPM_ALG_SM2"
  | ecSchnorr => "TPM_ALG_ECSCHNORR"
  | kdf1Sp800_56a => "TPM_ALG_KDF1_SP800_56A"
  | kdf2 => "TPM_ALG_KDF2"
  | kdf1Sp800_108 => "TPM_ALG_KDF1_SP800_108"
  | ecc => "TPM_ALG_ECC"
  | symCipher => "TPM_ALG_SYMCIPHER"
  | ctr => "TPM_ALG_CTR"
  | ofb => "TPM_ALG_OFB"
  | cbc => "TPM_ALG_CBC"
  | cfb => "TPM_ALG_CFB"
  | ecb => "TPM_ALG_ECB"

/-- All algorithms in the order of their identifiers. -/
def all : List Algorithm :=
  [error, rsa, sha1, hmac, aes, mgf1, keyedHash, xor, sha256, sha384, sha512, null, sm3_256, sm4,
    rsaSsa, rsaEs, rsaPss, oaep, ecDsa, ecDh, ecDaa, sm2, ecSchnorr, kdf1Sp800_56a, kdf2,
    kdf1Sp800_108, ecc, symCipher, ctr, ofb, cbc, cfb, ecb]

/-- The algorithm with that identifier. -/
def ofId? (id : UInt16) : Option Algorithm := all.find? (·.id == id)

/-- The algorithm with that number, which need not fit 16 bits and may be negative. -/
def ofInt? (n : Int) : Option Algorithm :=
  all.find? fun algorithm => (algorithm.id.toNat : Int) == n

@[simp] theorem ofId?_id (algorithm : Algorithm) : ofId? algorithm.id = some algorithm := by
  cases algorithm <;> rfl

theorem id_of_ofId? {id : UInt16} {algorithm : Algorithm} (h : ofId? id = some algorithm) :
    algorithm.id = id := by
  simpa using List.find?_some h

end Algorithm

end TpmLink
