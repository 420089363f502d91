import TpmLink.Proofs.Wire.Bounds
import TpmLink.Proofs.Wire.Recognition
import TpmLink.Wire.Decoding

/-!
# Public areas on the wire

The readers of schemes, parameters and details recognize the encodings of their values, and the
reader of a public area exhausts the encodings of the areas within bounds. Since each piece says
where it ends, an encoding belongs to one area only.
-/

namespace TpmLink

open Reader

/-! ### Selectors -/

theorem Algorithm.id_inj (a b : Algorithm) : a.id = b.id ↔ a = b := by
  refine ⟨fun h => ?_, fun h => by rw [h]⟩
  have hfound := congrArg Algorithm.ofId? h
  rw [Algorithm.ofId?_id, Algorithm.ofId?_id] at hfound
  exact Option.some.inj hfound

@[simp] theorem Algorithm.toBytes_append_inj (a b : Algorithm) (s t : Bytes) :
    a.toBytes ++ s = b.toBytes ++ t ↔ a = b ∧ s = t := by
  rw [Algorithm.toBytes, Algorithm.toBytes, be16_append_inj, Algorithm.id_inj]

@[simp] theorem Algorithm.toBytes_append_eq (a b : Algorithm) (s : Bytes) :
    a.toBytes ++ s = b.toBytes ↔ a = b ∧ s = [] := by
  simpa using Algorithm.toBytes_append_inj a b s []

/-- A value that starts with its selector is recognized by a reader that goes on as the selector
says. -/
theorem recognizes_selected {α : Type} {valid : α → Prop} {encode : α → Bytes}
    {arm : Algorithm → Reader α}
    (harm : ∀ selector, (arm selector).Recognizes fun bytes value =>
      valid value ∧ selector.toBytes ++ bytes = encode value)
    (hselector : ∀ value, ∃ (selector : Algorithm) (bytes : Bytes),
      selector.toBytes ++ bytes = encode value) :
    (algorithm >>= arm).Recognizes (.encoding valid encode) := by
  refine (recognizes_algorithm.bind harm).congr fun bytes value => ?_
  rw [Grammar.encoding_andThen]
  constructor
  · rintro ⟨selector, back, -, ⟨hvalid, hencode⟩, rfl⟩
    exact ⟨hvalid, hencode⟩
  · rintro ⟨hvalid, rfl⟩
    obtain ⟨selector, back, hencode⟩ := hselector value
    exact ⟨selector, back, trivial, ⟨hvalid, hencode⟩, hencode.symm⟩

theorem recognizes_oneWord {α : Type} (make : UInt16 → α) :
    (do return make (← word16) : Reader α).Recognizes fun bytes value =>
      ∃ word, value = make word ∧ bytes = be16 word := by
  refine (recognizes_word16.bind fun word => recognizes_pure (make word)).congr
    fun bytes value => ?_
  simp [Grammar.encoding_andThen, Grammar.unit, and_assoc]

theorem recognizes_twoWords {α : Type} (make : UInt16 → UInt16 → α) :
    (do return make (← word16) (← word16) : Reader α).Recognizes fun bytes value =>
      ∃ first second, value = make first second ∧ bytes = be16 first ++ be16 second := by
  refine (recognizes_word16.bind fun first => recognizes_oneWord (make first)).congr
    fun bytes value => ?_
  rw [Grammar.encoding_andThen]
  constructor
  · rintro ⟨first, _, -, ⟨second, rfl, rfl⟩, rfl⟩
    exact ⟨first, second, rfl, rfl⟩
  · rintro ⟨first, second, rfl, rfl⟩
    exact ⟨first, _, trivial, ⟨second, rfl, rfl⟩, rfl⟩

/-! ### Schemes -/

theorem recognizes_symmetricDef (allowXor : Bool) :
    (SymmetricDef.read allowXor).Recognizes
      (.encoding (fun symmetric => allowXor = true ∨ ¬ symmetric.IsXor) SymmetricDef.toBytes) := by
  apply recognizes_selected
  · intro selector
    split
    · refine (recognizes_twoWords _).congr fun bytes value => ?_
      cases value <;> simp [SymmetricDef.toBytes, SymmetricDef.IsXor, and_assoc]
    · refine (recognizes_twoWords _).congr fun bytes value => ?_
      cases value <;> simp [SymmetricDef.toBytes, SymmetricDef.IsXor, and_assoc]
    · cases allowXor with
      | true =>
        refine (recognizes_oneWord _).congr fun bytes value => ?_
        cases value <;> simp [SymmetricDef.toBytes]
      | false =>
        refine (recognizes_fail _).congr fun bytes value => ?_
        cases value <;> simp [SymmetricDef.toBytes, SymmetricDef.IsXor, Grammar.nothing]
    · refine (recognizes_pure _).congr fun bytes value => ?_
      cases value <;> simp [SymmetricDef.toBytes, SymmetricDef.IsXor, Grammar.unit]
    · refine (recognizes_fail _).congr fun bytes value => ?_
      cases value <;> simp_all [SymmetricDef.toBytes, Grammar.nothing]
  · intro value
    cases value <;> simp [SymmetricDef.toBytes]

theorem recognizes_keyedHashScheme :
    KeyedHashScheme.read.Recognizes (.encoding (fun _ => True) KeyedHashScheme.toBytes) := by
  apply recognizes_selected
  · intro selector
    split
    · refine (recognizes_oneWord _).congr fun bytes value => ?_
      cases value <;> simp [KeyedHashScheme.toBytes]
    · refine (recognizes_twoWords _).congr fun bytes value => ?_
      cases value <;> simp [KeyedHashScheme.toBytes, and_assoc]
    · refine (recognizes_pure _).congr fun bytes value => ?_
      cases value <;> simp [KeyedHashScheme.toBytes, Grammar.unit]
    · refine (recognizes_fail _).congr fun bytes value => ?_
      cases value <;> simp_all [KeyedHashScheme.toBytes, Grammar.nothing]
  · intro value
    cases value <;> simp [KeyedHashScheme.toBytes]

theorem recognizes_rsaScheme :
    RsaScheme.read.Recognizes (.encoding (fun _ => True) RsaScheme.toBytes) := by
  apply recognizes_selected
  · intro selector
    split
    · refine (recognizes_oneWord _).congr fun bytes value => ?_
      cases value <;> simp [RsaScheme.toBytes]
    · refine (recognizes_oneWord _).congr fun bytes value => ?_
      cases value <;> simp [RsaScheme.toBytes]
    · refine (recognizes_pure _).congr fun bytes value => ?_
      cases value <;> simp [RsaScheme.toBytes, Grammar.unit]
    · refine (recognizes_oneWord _).congr fun bytes value => ?_
      cases value <;> simp [RsaScheme.toBytes]
    · refine (recognizes_pure _).congr fun bytes value => ?_
      cases value <;> simp [RsaScheme.toBytes, Grammar.unit]
    · refine (recognizes_fail _).congr fun bytes value => ?_
      cases value <;> simp_all [RsaScheme.toBytes, Grammar.nothing]
  · intro value
    cases value <;> simp [RsaScheme.toBytes]

theorem recognizes_eccScheme :
    EccScheme.read.Recognizes (.encoding (fun _ => True) EccScheme.toBytes) := by
  apply recognizes_selected
  · intro selector
    split
    · refine (recognizes_oneWord _).congr fun bytes value => ?_
      cases value <;> simp [EccScheme.toBytes]
    · refine (recognizes_twoWords _).congr fun bytes value => ?_
      cases value <;> simp [EccScheme.toBytes, and_assoc]
    · refine (recognizes_oneWord _).congr fun bytes value => ?_
      cases value <;> simp [EccScheme.toBytes]
    · refine (recognizes_oneWord _).congr fun bytes value => ?_
      cases value <;> simp [EccScheme.toBytes]
    · refine (recognizes_pure _).congr fun bytes value => ?_
      cases value <;> simp [EccScheme.toBytes, Grammar.unit]
    · refine (recognizes_fail _).congr fun bytes value => ?_
      cases value <;> simp_all [EccScheme.toBytes, Grammar.nothing]
  · intro value
    cases value <;> simp [EccScheme.toBytes]

theorem recognizes_kdfScheme :
    KdfScheme.read.Recognizes (.encoding (fun _ => True) KdfScheme.toBytes) := by
  apply recognizes_selected
  · intro selector
    split
    · refine (recognizes_oneWord _).congr fun bytes value => ?_
      cases value <;> simp [KdfScheme.toBytes]
    · refine (recognizes_oneWord _).congr fun bytes value => ?_
      cases value <;> simp [KdfScheme.toBytes]
    · refine (recognizes_oneWord _).congr fun bytes value => ?_
      cases value <;> simp [KdfScheme.toBytes]
    · refine (recognizes_oneWord _).congr fun bytes value => ?_
      cases value <;> simp [KdfScheme.toBytes]
    · refine (recognizes_pure _).congr fun bytes value => ?_
      cases value <;> simp [KdfScheme.toBytes, Grammar.unit]
    · refine (recognizes_fail _).congr fun bytes value => ?_
      cases value <;> simp_all [KdfScheme.toBytes, Grammar.nothing]
  · intro value
    cases value <;> simp [KdfScheme.toBytes]

/-! ### Parameters -/

theorem recognizes_rsaParameters :
    RsaParameters.read.Recognizes
      (.encoding (fun parameters => ¬ parameters.symmetric.IsXor) RsaParameters.toBytes) := by
  refine ((recognizes_symmetricDef false).bind fun symmetric => recognizes_rsaScheme.bind
    fun scheme => recognizes_word16.bind fun keyBits => recognizes_word32.bind
    fun exponent => recognizes_pure _).congr fun bytes value => ?_
  simp only [Grammar.encoding_andThen, Grammar.unit]
  constructor
  · rintro ⟨symmetric, _, hxor, ⟨scheme, _, -, ⟨keyBits, _, -, ⟨exponent, _, -, ⟨rfl, rfl⟩, rfl⟩,
      rfl⟩, rfl⟩, rfl⟩
    refine ⟨by simpa using hxor, by simp [RsaParameters.toBytes]⟩
  · rintro ⟨hxor, rfl⟩
    refine ⟨value.symmetric, _, .inr hxor, ⟨value.scheme, _, trivial, ⟨value.keyBits, _, trivial,
      ⟨value.exponent, [], trivial, ⟨rfl, rfl⟩, rfl⟩, rfl⟩, rfl⟩, by simp [RsaParameters.toBytes]⟩

theorem recognizes_eccParameters :
    EccParameters.read.Recognizes
      (.encoding (fun parameters => ¬ parameters.symmetric.IsXor) EccParameters.toBytes) := by
  refine ((recognizes_symmetricDef false).bind fun symmetric => recognizes_eccScheme.bind
    fun scheme => recognizes_word16.bind fun curveId => recognizes_kdfScheme.bind
    fun kdf => recognizes_pure _).congr fun bytes value => ?_
  simp only [Grammar.encoding_andThen, Grammar.unit]
  constructor
  · rintro ⟨symmetric, _, hxor, ⟨scheme, _, -, ⟨curveId, _, -, ⟨kdf, _, -, ⟨rfl, rfl⟩, rfl⟩,
      rfl⟩, rfl⟩, rfl⟩
    refine ⟨by simpa using hxor, by simp [EccParameters.toBytes]⟩
  · rintro ⟨hxor, rfl⟩
    refine ⟨value.symmetric, _, .inr hxor, ⟨value.scheme, _, trivial, ⟨value.curveId, _, trivial,
      ⟨value.kdf, [], trivial, ⟨rfl, rfl⟩, rfl⟩, rfl⟩, rfl⟩, by simp [EccParameters.toBytes]⟩

/-! ### Areas -/

/-- A payload field in front of the rest, within a bound that its prefix can count. -/
theorem sized_andThen {β : Type} {max : Nat} (hmax : max < 2 ^ 16) (next : Bytes → Grammar β)
    (bytes : Bytes) (value : β) :
    ((Grammar.encoding (fun payload => payload.length ≤ max ∧ payload.length < 2 ^ 16)
        sized).andThen next) bytes value ↔
      ∃ payload back, payload.length ≤ max ∧ next payload back value ∧
        bytes = sized payload ++ back := by
  rw [Grammar.encoding_andThen]
  have hbound : ∀ payload : Bytes,
      payload.length ≤ max ∧ payload.length < 2 ^ 16 ↔ payload.length ≤ max := by
    intro payload
    omega
  simp only [hbound]

/-- A value and a payload behind it. -/
theorem recognizes_withPayload {α β : Type} {reader : Reader α} {valid : α → Prop}
    {encode : α → Bytes} {max : Nat} (hreader : reader.Recognizes (.encoding valid encode))
    (hmax : max < 2 ^ 16) (make : α → Bytes → β) :
    (do return make (← reader) (← Reader.sized max) : Reader β).Recognizes fun bytes value =>
      ∃ head payload, value = make head payload ∧ valid head ∧ payload.length ≤ max ∧
        bytes = encode head ++ sized payload := by
  refine (hreader.bind fun head => (recognizes_sized max).bind
    fun payload => recognizes_pure (make head payload)).congr fun bytes value => ?_
  simp only [Grammar.encoding_andThen, sized_andThen hmax, Grammar.unit]
  constructor
  · rintro ⟨head, _, hvalid, ⟨payload, _, hpayload, ⟨rfl, rfl⟩, rfl⟩, rfl⟩
    exact ⟨head, payload, rfl, hvalid, hpayload, by rw [List.append_nil]⟩
  · rintro ⟨head, payload, rfl, hvalid, hpayload, rfl⟩
    exact ⟨head, _, hvalid, ⟨payload, [], hpayload, ⟨rfl, rfl⟩, rfl⟩, by rw [List.append_nil]⟩

/-- The details of an object of the given type. -/
def PublicDetails.grammar (objectType : Algorithm) : Grammar PublicDetails :=
  fun bytes details =>
    details.algorithm = objectType ∧ details.WithinBounds ∧ bytes = details.toBytes

theorem recognizes_publicDetails (objectType : Algorithm) :
    (PublicDetails.read objectType).Recognizes (PublicDetails.grammar objectType) := by
  unfold PublicDetails.read
  split
  · refine (recognizes_withPayload recognizes_keyedHashScheme (by decide) _).congr
      fun bytes value => ?_
    cases value <;> simp [PublicDetails.grammar, PublicDetails.algorithm,
      PublicDetails.WithinBounds, PublicDetails.toBytes, and_assoc]
  · refine (recognizes_withPayload (recognizes_symmetricDef true) (by decide) _).congr
      fun bytes value => ?_
    cases value <;> simp [PublicDetails.grammar, PublicDetails.algorithm,
      PublicDetails.WithinBounds, PublicDetails.toBytes, and_assoc]
  · refine (recognizes_withPayload recognizes_rsaParameters (by decide) _).congr
      fun bytes value => ?_
    cases value <;> simp [PublicDetails.grammar, PublicDetails.algorithm,
      PublicDetails.WithinBounds, PublicDetails.toBytes, and_assoc]
  · refine (recognizes_eccParameters.bind fun parameters => recognizes_withPayload
      (recognizes_sized maxEccKey) (by decide) (PublicDetails.ecc parameters)).congr
      fun bytes value => ?_
    rw [Grammar.encoding_andThen]
    constructor
    · rintro ⟨parameters, _, hxor, ⟨x, y, rfl, ⟨hx, -⟩, hy, rfl⟩, rfl⟩
      exact ⟨rfl, ⟨hxor, hx, hy⟩, by simp [PublicDetails.toBytes]⟩
    · rintro ⟨htype, hbounds, rfl⟩
      cases value with
      | ecc parameters x y =>
        obtain ⟨hxor, hx, hy⟩ := hbounds
        have hsize : x.length < 2 ^ 16 := Nat.lt_of_le_of_lt hx (by decide)
        exact ⟨parameters, _, hxor, ⟨x, y, rfl, ⟨hx, hsize⟩, hy, rfl⟩,
          by simp [PublicDetails.toBytes]⟩
      | _ => cases htype
  · refine (recognizes_fail _).congr fun bytes value => ?_
    simp only [Grammar.nothing, PublicDetails.grammar, false_iff]
    rintro ⟨rfl, -⟩
    cases value <;> simp_all [PublicDetails.algorithm]

/-- An area within bounds with any attribute word; the value keeps the known attributes. -/
def PublicArea.grammar : Grammar PublicArea := fun bytes area =>
  area.WithinBounds ∧ ∃ attributes : UInt32,
    area.attributes = FlagSet.truncate attributes ∧ bytes = area.toBytesWith attributes

theorem PublicArea.grammar_toBytesWith {area : PublicArea} (h : area.WithinBounds)
    (attributes : UInt32) :
    grammar (area.toBytesWith attributes) (area.withAttributes attributes) :=
  ⟨h, attributes, rfl, rfl⟩

/-- The reader of a public area accepts exactly the wire forms of the areas within bounds. -/
theorem exhausts_publicArea : PublicArea.read.Exhausts PublicArea.grammar := by
  refine (Exhausts.bind recognizes_algorithm fun objectType => Exhausts.bind recognizes_word16
    fun nameAlg => Exhausts.bind recognizes_word32 fun attributes =>
    Exhausts.bind (recognizes_sized maxDigest) fun authPolicy =>
    Exhausts.bind (recognizes_publicDetails objectType) fun details =>
    exhausts_end _ _).congr fun bytes area => ?_
  simp only [Grammar.encoding_andThen, sized_andThen (show maxDigest < 2 ^ 16 by decide)]
  constructor
  · rintro ⟨objectType, _, -, ⟨nameAlg, _, -, ⟨attributes, _, -, ⟨authPolicy, _, hpolicy,
      ⟨details, _, _, ⟨rfl, hdetails, rfl⟩, ⟨rfl, rfl⟩, rfl⟩, rfl⟩, rfl⟩, rfl⟩, rfl⟩
    refine ⟨⟨hpolicy, hdetails⟩, attributes, rfl, ?_⟩
    simp [PublicArea.toBytesWith, PublicArea.algorithm, Algorithm.toBytes]
  · rintro ⟨⟨hpolicy, hdetails⟩, attributes, hattributes, rfl⟩
    refine ⟨area.algorithm, _, trivial, ⟨area.nameAlg, _, trivial, ⟨attributes, _, trivial,
      ⟨area.authPolicy, _, hpolicy, ⟨area.details, area.details.toBytes, [],
      ⟨rfl, hdetails, rfl⟩, ⟨rfl, ?_⟩, rfl⟩, rfl⟩, rfl⟩, rfl⟩, ?_⟩
    · rw [← hattributes]
    · simp [PublicArea.toBytesWith, Algorithm.toBytes]

end TpmLink
