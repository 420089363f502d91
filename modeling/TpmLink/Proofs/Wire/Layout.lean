import TpmLink.Proofs.Wire.Refusals

/-!
# Responses item by item

A response as the sequence of its items. Selectors and sizes are the items that decide how the rest
is read, and each of them allows some words only. A response is spoiled when one of them is replaced
by a word that it does not allow.
-/

namespace TpmLink

open Reader

/-- A piece of a message. -/
inductive Item where
  /-- The identifier of one of these algorithms. -/
  | selector (members : List Algorithm) (id : UInt16)
  /-- The length of the payload behind it, at most `max`. -/
  | size (max : Nat) (length : UInt16)
  /-- Bytes that may be any. -/
  | plain (bytes : Bytes)
  deriving DecidableEq, Repr

namespace Item

def toBytes : Item → Bytes
  | selector _ id => be16 id
  | size _ length => be16 length
  | plain bytes => bytes

/-- The items one after the other. -/
def encode (items : List Item) : Bytes := items.flatMap toBytes

@[simp] theorem encode_nil : encode [] = [] := rfl

@[simp] theorem encode_cons (item : Item) (items : List Item) :
    encode (item :: items) = item.toBytes ++ encode items := rfl

@[simp] theorem encode_append (first second : List Item) :
    encode (first ++ second) = encode first ++ encode second := List.flatMap_append

/-- A payload behind its length. -/
def counted (max : Nat) (payload : Bytes) : List Item :=
  [.size max (UInt16.ofNat payload.length), .plain payload]

/-- A value that starts with its selector. -/
def selected (members : List Algorithm) (bytes : Bytes) : List Item :=
  [.selector members (UInt16.ofNat (beValue (bytes.take 2))), .plain (bytes.drop 2)]

@[simp] theorem encode_counted (max : Nat) (payload : Bytes) :
    encode (counted max payload) = sized payload := by
  simp [counted, toBytes, sized]

theorem encode_selected {bytes : Bytes} (h : 2 ≤ bytes.length) (members : List Algorithm) :
    encode (selected members bytes) = bytes := by
  have htwo : (bytes.take 2).length = 2 := List.length_take_of_le h
  simp [selected, toBytes, be16_beValue htwo]

end Item

/-- The items with one selector or one size replaced by a word that has no place there: the bytes
that come of it, and the failure that belongs to it. -/
inductive Spoiled : List Item → Failure → Bytes → Prop where
  | selector {members : List Algorithm} {id word : UInt16} {items : List Item}
      (h : ∀ algorithm ∈ members, algorithm.id ≠ word) :
      Spoiled (.selector members id :: items) .notSupported (be16 word ++ Item.encode items)
  | size {max : Nat} {length word : UInt16} {items : List Item} (h : max < word.toNat) :
      Spoiled (.size max length :: items) .deviceBusy (be16 word ++ Item.encode items)
  | behind (item : Item) {items : List Item} {failure : Failure} {bytes : Bytes}
      (h : Spoiled items failure bytes) : Spoiled (item :: items) failure (item.toBytes ++ bytes)

namespace Spoiled

variable {first second items : List Item} {failure : Failure} {bytes : Bytes}

theorem length_eq (h : Spoiled items failure bytes) :
    bytes.length = (Item.encode items).length := by
  induction h with
  | selector h => simp [Item.toBytes]
  | size h => simp [Item.toBytes]
  | behind item h ih => simp [ih]

theorem after (before : List Item) (h : Spoiled items failure bytes) :
    Spoiled (before ++ items) failure (Item.encode before ++ bytes) := by
  induction before with
  | nil => exact h
  | cons item rest ih =>
    rw [Item.encode_cons, List.append_assoc]
    exact .behind item ih

/-- What is spoiled in two parts is spoiled in one of them. -/
theorem append_cases (h : Spoiled (first ++ second) failure bytes) :
    (∃ front, Spoiled first failure front ∧ bytes = front ++ Item.encode second) ∨
      ∃ back, Spoiled second failure back ∧ bytes = Item.encode first ++ back := by
  induction first generalizing bytes with
  | nil => exact .inr ⟨bytes, h, rfl⟩
  | cons item rest ih =>
    cases h with
    | selector h => exact .inl ⟨_, .selector h, by simp⟩
    | size h => exact .inl ⟨_, .size h, by simp⟩
    | behind _ h =>
      rcases ih h with ⟨front, hfront, rfl⟩ | ⟨back, hback, rfl⟩
      · exact .inl ⟨_, .behind item hfront, by simp⟩
      · exact .inr ⟨back, hback, by simp⟩

end Spoiled

/-! ### Algorithms that a selector allows -/

def SymmetricDef.members (allowXor : Bool) : List Algorithm :=
  if allowXor then [.aes, .sm4, .xor, .null] else [.aes, .sm4, .null]

def KeyedHashScheme.members : List Algorithm := [.hmac, .xor, .null]
def RsaScheme.members : List Algorithm := [.rsaSsa, .rsaPss, .rsaEs, .oaep, .null]
def EccScheme.members : List Algorithm := [.ecDsa, .ecDaa, .ecSchnorr, .ecDh, .null]

def KdfScheme.members : List Algorithm :=
  [.mgf1, .kdf1Sp800_56a, .kdf2, .kdf1Sp800_108, .null]

def PublicDetails.members : List Algorithm := [.keyedHash, .symCipher, .rsa, .ecc]

/-! ### Items of a response -/

open Item (selected counted)

def RsaParameters.items (parameters : RsaParameters) : List Item :=
  selected (SymmetricDef.members false) parameters.symmetric.toBytes ++
    (selected RsaScheme.members parameters.scheme.toBytes ++
      [.plain (be16 parameters.keyBits), .plain (be32 parameters.exponent)])

def EccParameters.items (parameters : EccParameters) : List Item :=
  selected (SymmetricDef.members false) parameters.symmetric.toBytes ++
    (selected EccScheme.members parameters.scheme.toBytes ++
      (.plain (be16 parameters.curveId) ::
        selected KdfScheme.members parameters.kdf.toBytes))

def PublicDetails.items : PublicDetails → List Item
  | .keyedHash scheme unique =>
    selected KeyedHashScheme.members scheme.toBytes ++ counted maxDigest unique
  | .symCipher symmetric unique =>
    selected (SymmetricDef.members true) symmetric.toBytes ++ counted maxDigest unique
  | .rsa parameters modulus => parameters.items ++ counted maxRsaKey modulus
  | .ecc parameters x y => parameters.items ++ (counted maxEccKey x ++ counted maxEccKey y)

def PublicArea.items (area : PublicArea) (attributes : UInt32) : List Item :=
  .selector PublicDetails.members area.algorithm.id :: .plain (be16 area.nameAlg) ::
    .plain (be32 attributes) :: (counted maxDigest area.authPolicy ++ area.details.items)

namespace ReadPublic

/-- What follows the header, with any word in the place of the attributes. -/
def bodyItems (value : ReadPublic) (attributes : UInt32) : List Item :=
  .size maxPublicArea value.outPublic.size :: (value.outPublic.area.items attributes ++
    (counted maxName value.name.name ++ counted maxName value.qualifiedName.name))

def items (value : ReadPublic) (header : Header) (attributes : UInt32) : List Item :=
  .plain header.toBytes :: value.bodyItems attributes

end ReadPublic

/-! ### The bytes of the items -/

theorem SymmetricDef.encode_items (symmetric : SymmetricDef) (members : List Algorithm) :
    Item.encode (selected members symmetric.toBytes) = symmetric.toBytes :=
  Item.encode_selected (by cases symmetric <;> simp [toBytes]) members

theorem KeyedHashScheme.encode_items (scheme : KeyedHashScheme) (members : List Algorithm) :
    Item.encode (selected members scheme.toBytes) = scheme.toBytes :=
  Item.encode_selected (by cases scheme <;> simp [toBytes]) members

theorem RsaScheme.encode_items (scheme : RsaScheme) (members : List Algorithm) :
    Item.encode (selected members scheme.toBytes) = scheme.toBytes :=
  Item.encode_selected (by cases scheme <;> simp [toBytes]) members

theorem EccScheme.encode_items (scheme : EccScheme) (members : List Algorithm) :
    Item.encode (selected members scheme.toBytes) = scheme.toBytes :=
  Item.encode_selected (by cases scheme <;> simp [toBytes]) members

theorem KdfScheme.encode_items (scheme : KdfScheme) (members : List Algorithm) :
    Item.encode (selected members scheme.toBytes) = scheme.toBytes :=
  Item.encode_selected (by cases scheme <;> simp [toBytes]) members

theorem RsaParameters.encode_items (parameters : RsaParameters) :
    Item.encode parameters.items = parameters.toBytes := by
  simp [items, toBytes, SymmetricDef.encode_items, RsaScheme.encode_items, Item.toBytes]

theorem EccParameters.encode_items (parameters : EccParameters) :
    Item.encode parameters.items = parameters.toBytes := by
  simp [items, toBytes, SymmetricDef.encode_items, EccScheme.encode_items,
    KdfScheme.encode_items, Item.toBytes]

theorem PublicDetails.encode_items (details : PublicDetails) :
    Item.encode details.items = details.toBytes := by
  cases details <;> simp [items, toBytes, KeyedHashScheme.encode_items,
    SymmetricDef.encode_items, RsaParameters.encode_items, EccParameters.encode_items]

theorem PublicArea.encode_items (area : PublicArea) (attributes : UInt32) :
    Item.encode (area.items attributes) = area.toBytesWith attributes := by
  simp [items, toBytesWith, PublicDetails.encode_items, Item.toBytes, Algorithm.toBytes]

namespace ReadPublic

/-- The items of a value depend on its attributes only through the word that stands for them. -/
theorem bodyItems_ofParts (area : PublicArea) (known attributes : UInt32)
    (name qualifiedName : Bytes) :
    (ofParts area known name qualifiedName).bodyItems attributes =
      .size maxPublicArea (UInt16.ofNat (area.toBytesWith attributes).length) ::
        (area.items attributes ++ (counted maxName name ++ counted maxName qualifiedName)) := by
  have hlength : (area.withAttributes known).toBytes.length =
      (area.toBytesWith attributes).length := by
    rw [area.length_toBytes_withAttributes, PublicArea.length_toBytesWith,
      PublicArea.length_toBytesWith]
  rw [← hlength]
  rfl

theorem encode_bodyItems (area : PublicArea) (known attributes : UInt32)
    (name qualifiedName : Bytes) :
    Item.encode ((ofParts area known name qualifiedName).bodyItems attributes) =
      bodyBytes area attributes name qualifiedName := by
  rw [bodyItems_ofParts]
  simp [PublicArea.encode_items, Item.toBytes, bodyBytes, sized]

end ReadPublic

end TpmLink
