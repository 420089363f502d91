import TpmLink.Wire.Encoding

/-!
# Bounds of a public area

Every payload of a public area has a largest length, and the parameters of an asymmetric key have no
place for XOR. An area within these bounds fits the largest size that a message may give it.
-/

namespace TpmLink

def SymmetricDef.IsXor : SymmetricDef → Prop
  | .xor _ => True
  | _ => False

instance : DecidablePred SymmetricDef.IsXor
  | .aes _ _ | .sm4 _ _ | .null => isFalse id
  | .xor _ => isTrue trivial

def PublicDetails.WithinBounds : PublicDetails → Prop
  | .keyedHash _ unique => unique.length ≤ maxDigest
  | .symCipher _ unique => unique.length ≤ maxDigest
  | .rsa parameters modulus => ¬ parameters.symmetric.IsXor ∧ modulus.length ≤ maxRsaKey
  | .ecc parameters x y =>
    ¬ parameters.symmetric.IsXor ∧ x.length ≤ maxEccKey ∧ y.length ≤ maxEccKey

instance : DecidablePred PublicDetails.WithinBounds
  | .keyedHash _ unique => inferInstanceAs (Decidable (unique.length ≤ maxDigest))
  | .symCipher _ unique => inferInstanceAs (Decidable (unique.length ≤ maxDigest))
  | .rsa parameters modulus =>
    inferInstanceAs (Decidable (¬ parameters.symmetric.IsXor ∧ modulus.length ≤ maxRsaKey))
  | .ecc parameters x y =>
    inferInstanceAs (Decidable
      (¬ parameters.symmetric.IsXor ∧ x.length ≤ maxEccKey ∧ y.length ≤ maxEccKey))

/-- What a reader of public areas may accept. -/
def PublicArea.WithinBounds (area : PublicArea) : Prop :=
  area.authPolicy.length ≤ maxDigest ∧ area.details.WithinBounds

instance : DecidablePred PublicArea.WithinBounds := fun area =>
  inferInstanceAs (Decidable (area.authPolicy.length ≤ maxDigest ∧ area.details.WithinBounds))

/-- The bytes of an area with any word in the place of its attributes, reserved bits included. -/
def PublicArea.toBytesWith (area : PublicArea) (attributes : UInt32) : Bytes :=
  area.algorithm.toBytes ++ be16 area.nameAlg ++ be32 attributes ++ sized area.authPolicy ++
    area.details.toBytes

theorem PublicArea.toBytes_eq (area : PublicArea) :
    area.toBytes = area.toBytesWith area.attributes.bits := rfl

/-- The area with the known bits of an attribute word. -/
def PublicArea.withAttributes (area : PublicArea) (attributes : UInt32) : PublicArea :=
  { area with attributes := FlagSet.truncate attributes }

theorem PublicArea.withAttributes_of_eq {area : PublicArea} {attributes : UInt32}
    (h : area.attributes = FlagSet.truncate attributes) :
    area.withAttributes attributes = area := by
  rw [withAttributes, ← h]

/-! ### Lengths -/

@[simp] theorem Algorithm.length_toBytes (algorithm : Algorithm) :
    algorithm.toBytes.length = 2 := length_be16 _

theorem SymmetricDef.length_toBytes_le (symmetric : SymmetricDef) :
    symmetric.toBytes.length ≤ 6 := by
  cases symmetric <;> simp [SymmetricDef.toBytes]

theorem KeyedHashScheme.length_toBytes_le (scheme : KeyedHashScheme) :
    scheme.toBytes.length ≤ 6 := by
  cases scheme <;> simp [KeyedHashScheme.toBytes]

theorem RsaScheme.length_toBytes_le (scheme : RsaScheme) : scheme.toBytes.length ≤ 4 := by
  cases scheme <;> simp [RsaScheme.toBytes]

theorem EccScheme.length_toBytes_le (scheme : EccScheme) : scheme.toBytes.length ≤ 6 := by
  cases scheme <;> simp [EccScheme.toBytes]

theorem KdfScheme.length_toBytes_le (scheme : KdfScheme) : scheme.toBytes.length ≤ 4 := by
  cases scheme <;> simp [KdfScheme.toBytes]

theorem RsaParameters.length_toBytes_le (parameters : RsaParameters) :
    parameters.toBytes.length ≤ 16 := by
  have hsymmetric := parameters.symmetric.length_toBytes_le
  have hscheme := parameters.scheme.length_toBytes_le
  simp only [RsaParameters.toBytes, List.length_append, length_be16, length_be32]
  omega

theorem EccParameters.length_toBytes_le (parameters : EccParameters) :
    parameters.toBytes.length ≤ 18 := by
  have hsymmetric := parameters.symmetric.length_toBytes_le
  have hscheme := parameters.scheme.length_toBytes_le
  have hkdf := parameters.kdf.length_toBytes_le
  simp only [EccParameters.toBytes, List.length_append, length_be16]
  omega

/-- The details of an RSA key of the largest size are the longest. -/
theorem PublicDetails.length_toBytes_le {details : PublicDetails} (h : details.WithinBounds) :
    details.toBytes.length ≤ 16 + 2 + maxRsaKey := by
  cases details with
  | keyedHash scheme unique =>
    have hscheme := scheme.length_toBytes_le
    simp only [WithinBounds, maxDigest] at h
    simp only [PublicDetails.toBytes, List.length_append, length_sized, maxRsaKey]
    omega
  | symCipher symmetric unique =>
    have hsymmetric := symmetric.length_toBytes_le
    simp only [WithinBounds, maxDigest] at h
    simp only [PublicDetails.toBytes, List.length_append, length_sized, maxRsaKey]
    omega
  | rsa parameters modulus =>
    have hparameters := parameters.length_toBytes_le
    simp only [WithinBounds, maxRsaKey] at h
    simp only [PublicDetails.toBytes, List.length_append, length_sized, maxRsaKey]
    omega
  | ecc parameters x y =>
    have hparameters := parameters.length_toBytes_le
    simp only [WithinBounds, maxEccKey] at h
    simp only [PublicDetails.toBytes, List.length_append, length_sized, maxRsaKey]
    omega

namespace PublicArea

theorem length_toBytesWith (area : PublicArea) (attributes : UInt32) :
    (area.toBytesWith attributes).length =
      10 + area.authPolicy.length + area.details.toBytes.length := by
  simp [toBytesWith]
  omega

/-- Attributes take up four bytes whatever they are. -/
theorem length_toBytes_withAttributes (area : PublicArea) (attributes : UInt32) :
    (area.withAttributes attributes).toBytes.length = (area.toBytesWith attributes).length := by
  rw [toBytes_eq, length_toBytesWith, length_toBytesWith]
  rfl

/-- The longest area within the bounds is that of an RSA key of the largest size. -/
theorem length_toBytesWith_le {area : PublicArea} (h : area.WithinBounds) (attributes : UInt32) :
    (area.toBytesWith attributes).length ≤ 604 := by
  have hdetails := PublicDetails.length_toBytes_le h.2
  have hpolicy := h.1
  rw [length_toBytesWith]
  simp only [maxDigest, maxRsaKey] at hdetails hpolicy
  omega

theorem length_toBytesWith_le_limit {area : PublicArea} (h : area.WithinBounds)
    (attributes : UInt32) : (area.toBytesWith attributes).length ≤ maxPublicArea :=
  Nat.le_trans (length_toBytesWith_le h attributes) (by decide)

end PublicArea

end TpmLink
