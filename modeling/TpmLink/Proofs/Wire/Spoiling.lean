import TpmLink.Proofs.Wire.Layout

/-!
# Spoiled responses are reported

Every reader judges its own items, and a reader in sequence judges the items of its parts, so a
selector or a size without a place is reported wherever it stands: a selector as not supported, a
size as the chip's fault. The type of an object is looked up first but judged behind the policy
only, and it is reported all the same.
-/

namespace TpmLink

open Reader
open Item (selected counted)

namespace Reader

variable {α β : Type} {reader : Reader α} {next : α → Reader β} {grammar : Grammar α} {value : α}
  {items first second : List Item}

/-- Whichever of the items is spoiled, and whatever follows them, the reader fails as that item
demands. -/
def Reports (reader : Reader α) (items : List Item) : Prop :=
  ∀ failure bytes, Spoiled items failure bytes → ∀ rest, reader.Refuses (bytes ++ rest) failure

theorem reports_nil (reader : Reader α) : reader.Reports [] := by
  intro failure bytes hspoiled
  cases hspoiled

theorem Reports.bind (h : reader.Reports items) (next : α → Reader β) :
    (reader >>= next).Reports items :=
  fun failure bytes hspoiled rest => (h failure bytes hspoiled rest).bind next

theorem Recognizes.reports (hreader : reader.Recognizes grammar)
    (hfirst : grammar (Item.encode first) value) (h : reader.Reports first)
    (hnext : (next value).Reports second) : (reader >>= next).Reports (first ++ second) := by
  intro failure bytes hspoiled rest
  rcases hspoiled.append_cases with ⟨front, hfront, rfl⟩ | ⟨back, hback, rfl⟩
  · rw [List.append_assoc]
    exact (h failure front hfront _).bind next
  · rw [List.append_assoc]
    exact hreader.refuses hfirst (hnext failure back hback rest)

/-- Bytes that may be any are never spoiled. -/
theorem Recognizes.reports_plain {bytes : Bytes} (hreader : reader.Recognizes grammar)
    (hbytes : grammar bytes value) (hnext : (next value).Reports items) :
    (reader >>= next).Reports (.plain bytes :: items) := by
  intro failure spoiled hspoiled rest
  cases hspoiled with
  | behind _ hspoiled =>
    rw [List.append_assoc]
    exact hreader.refuses hbytes (hnext failure _ hspoiled rest)

theorem reports_counted (max : Nat) (payload : Bytes) :
    (sized max).Reports (counted max payload) := by
  intro failure bytes hspoiled rest
  cases hspoiled with
  | size hsize =>
    rw [List.append_assoc]
    exact refuses_oversized hsize _
  | behind _ hspoiled =>
    cases hspoiled with
    | behind _ hspoiled => cases hspoiled

/-- A selector is reported by a reader that refuses every algorithm but its members. -/
theorem reports_selected {arm : Algorithm → Reader β} {members : List Algorithm}
    (harm : ∀ algorithm, algorithm ∉ members → ∀ bytes, (arm algorithm).Refuses bytes .notSupported)
    (bytes : Bytes) : (algorithm >>= arm).Reports (selected members bytes) := by
  intro failure spoiled hspoiled rest
  cases hspoiled with
  | selector hmembers =>
    rw [List.append_assoc]
    refine refuses_algorithm fun algorithm hid => harm algorithm (fun hmember => ?_) _
    exact hmembers algorithm hmember hid
  | behind _ hspoiled =>
    cases hspoiled with
    | behind _ hspoiled => cases hspoiled

end Reader

/-! ### Schemes -/

theorem reports_symmetricDef (allowXor : Bool) (symmetric : SymmetricDef) :
    (SymmetricDef.read allowXor).Reports
      (selected (SymmetricDef.members allowXor) symmetric.toBytes) := by
  refine reports_selected (fun selector hselector bytes => ?_) _
  split
  · cases allowXor <;> exact absurd (by decide) hselector
  · cases allowXor <;> exact absurd (by decide) hselector
  · cases allowXor with
    | true => exact absurd (by decide) hselector
    | false => exact refuses_fail (.misplaced .symmetric .xor) bytes
  · cases allowXor <;> exact absurd (by decide) hselector
  · exact refuses_fail (.misplaced .symmetric _) bytes

theorem reports_keyedHashScheme (scheme : KeyedHashScheme) :
    KeyedHashScheme.read.Reports (selected KeyedHashScheme.members scheme.toBytes) := by
  refine reports_selected (fun selector hselector bytes => ?_) _
  split
  · exact absurd (by decide) hselector
  · exact absurd (by decide) hselector
  · exact absurd (by decide) hselector
  · exact refuses_fail (.misplaced .keyedHashScheme _) bytes

theorem reports_rsaScheme (scheme : RsaScheme) :
    RsaScheme.read.Reports (selected RsaScheme.members scheme.toBytes) := by
  refine reports_selected (fun selector hselector bytes => ?_) _
  split
  · exact absurd (by decide) hselector
  · exact absurd (by decide) hselector
  · exact absurd (by decide) hselector
  · exact absurd (by decide) hselector
  · exact absurd (by decide) hselector
  · exact refuses_fail (.misplaced .rsaScheme _) bytes

theorem reports_eccScheme (scheme : EccScheme) :
    EccScheme.read.Reports (selected EccScheme.members scheme.toBytes) := by
  refine reports_selected (fun selector hselector bytes => ?_) _
  split
  · exact absurd (by decide) hselector
  · exact absurd (by decide) hselector
  · exact absurd (by decide) hselector
  · exact absurd (by decide) hselector
  · exact absurd (by decide) hselector
  · exact refuses_fail (.misplaced .eccScheme _) bytes

theorem reports_kdfScheme (scheme : KdfScheme) :
    KdfScheme.read.Reports (selected KdfScheme.members scheme.toBytes) := by
  refine reports_selected (fun selector hselector bytes => ?_) _
  split
  · exact absurd (by decide) hselector
  · exact absurd (by decide) hselector
  · exact absurd (by decide) hselector
  · exact absurd (by decide) hselector
  · exact absurd (by decide) hselector
  · exact refuses_fail (.misplaced .kdfScheme _) bytes

/-! ### Areas -/

theorem reports_rsaParameters {parameters : RsaParameters} (h : ¬ parameters.symmetric.IsXor) :
    RsaParameters.read.Reports parameters.items := by
  refine (recognizes_symmetricDef false).reports
    ⟨.inr h, SymmetricDef.encode_items _ _⟩ (reports_symmetricDef false _) ?_
  refine recognizes_rsaScheme.reports
    ⟨trivial, RsaScheme.encode_items _ _⟩ (reports_rsaScheme _) ?_
  exact recognizes_word16.reports_plain ⟨trivial, rfl⟩
    (recognizes_word32.reports_plain ⟨trivial, rfl⟩ (reports_nil _))

theorem reports_eccParameters {parameters : EccParameters} (h : ¬ parameters.symmetric.IsXor) :
    EccParameters.read.Reports parameters.items := by
  refine (recognizes_symmetricDef false).reports
    ⟨.inr h, SymmetricDef.encode_items _ _⟩ (reports_symmetricDef false _) ?_
  refine recognizes_eccScheme.reports
    ⟨trivial, EccScheme.encode_items _ _⟩ (reports_eccScheme _) ?_
  exact recognizes_word16.reports_plain ⟨trivial, rfl⟩ ((reports_kdfScheme _).bind _)

theorem reports_publicDetails {details : PublicDetails} (h : details.WithinBounds) :
    (PublicDetails.read details.algorithm).Reports details.items := by
  cases details with
  | keyedHash scheme unique =>
    exact recognizes_keyedHashScheme.reports ⟨trivial, KeyedHashScheme.encode_items _ _⟩
      (reports_keyedHashScheme scheme) ((reports_counted _ _).bind _)
  | symCipher symmetric unique =>
    exact (recognizes_symmetricDef true).reports ⟨.inl rfl, SymmetricDef.encode_items _ _⟩
      (reports_symmetricDef true symmetric) ((reports_counted _ _).bind _)
  | rsa parameters modulus =>
    exact recognizes_rsaParameters.reports ⟨h.1, RsaParameters.encode_items _⟩
      (reports_rsaParameters h.1) ((reports_counted _ _).bind _)
  | ecc parameters x y =>
    have hx : x.length < 2 ^ 16 := Nat.lt_of_le_of_lt h.2.1 (by decide)
    exact recognizes_eccParameters.reports ⟨h.1, EccParameters.encode_items _⟩
      (reports_eccParameters h.1) ((recognizes_sized maxEccKey).reports
        ⟨⟨h.2.1, hx⟩, Item.encode_counted _ _⟩ (reports_counted _ _) ((reports_counted _ _).bind _))

/-- An algorithm that is no object type is refused before any details are read. -/
theorem refuses_objectType {algorithm : Algorithm} (h : algorithm ∉ PublicDetails.members)
    (bytes : Bytes) : (PublicDetails.read algorithm).Refuses bytes .notSupported := by
  unfold PublicDetails.read
  split
  · exact absurd (by decide) h
  · exact absurd (by decide) h
  · exact absurd (by decide) h
  · exact absurd (by decide) h
  · exact refuses_fail (.misplaced .objectType _) bytes

theorem reports_publicArea {area : PublicArea} (h : area.WithinBounds) (attributes : UInt32) :
    PublicArea.read.Reports (area.items attributes) := by
  have hpolicy : area.authPolicy.length < 2 ^ 16 := Nat.lt_of_le_of_lt h.1 (by decide)
  intro failure bytes hspoiled rest
  cases hspoiled with
  | selector hmembers =>
    -- A known algorithm is kept until name algorithm, attributes and policy are read.
    simp only [Item.encode_cons, Item.encode_append, Item.encode_counted, Item.toBytes,
      List.append_assoc]
    refine refuses_algorithm fun algorithm hid => ?_
    have htype : algorithm ∉ PublicDetails.members := fun hmember =>
      hmembers algorithm hmember hid
    refine recognizes_word16.refuses ⟨trivial, rfl⟩ (recognizes_word32.refuses ⟨trivial, rfl⟩ ?_)
    exact (recognizes_sized maxDigest).refuses ⟨⟨h.1, hpolicy⟩, rfl⟩
      ((refuses_objectType htype _).bind _)
  | behind _ hspoiled =>
    rw [List.append_assoc]
    refine recognizes_algorithm.refuses ⟨trivial, rfl⟩ ?_
    refine (recognizes_word16.reports_plain ⟨trivial, rfl⟩
      (recognizes_word32.reports_plain ⟨trivial, rfl⟩ ?_)) failure _ hspoiled rest
    exact (recognizes_sized maxDigest).reports ⟨⟨h.1, hpolicy⟩, Item.encode_counted _ _⟩
      (reports_counted _ _) ((reports_publicDetails h.2).bind _)

namespace ReadPublic

variable {area : PublicArea} {name qualifiedName response : Bytes} {value : ReadPublic}

/-- Names behind a public area that has been read. -/
theorem reports_names (hname : name.length ≤ maxName) {β : Type}
    (make : SizedName → SizedName → β) :
    (do return make (← SizedName.read) (← SizedName.read) : Reader β).Reports
      (counted maxName name ++ counted maxName qualifiedName) :=
  recognizes_sizedName.reports ⟨name, hname, rfl, Item.encode_counted _ _⟩
    ((reports_counted _ _).bind _) (((reports_counted _ _).bind _).bind _)

/-- A payload that is spoiled inside keeps its length, so its size leads to all of it. -/
theorem reports_body (h : PartsWithinBounds area name qualifiedName) (known attributes : UInt32) :
    readBody.Reports ((ofParts area known name qualifiedName).bodyItems attributes) := by
  have hlimit := PublicArea.length_toBytesWith_le_limit h.area attributes
  have hitems := area.encode_items attributes
  -- A size in front of its payload is read with it, whatever is behind the two.
  have hcounted : ∀ payload back rest : Bytes,
      (Item.size maxPublicArea (UInt16.ofNat payload.length)).toBytes ++ (payload ++ back) ++ rest =
        sized payload ++ (back ++ rest) := by
    intro payload back rest
    simp [sized, Item.toBytes]
  intro failure bytes hspoiled rest
  rw [bodyItems_ofParts] at hspoiled
  cases hspoiled with
  | size hoversized =>
    rw [List.append_assoc]
    exact ((refuses_oversized hoversized _).bind _).bind _
  | behind _ hspoiled =>
    rcases hspoiled.append_cases with ⟨payload, hpayload, rfl⟩ | ⟨names, hnames, rfl⟩
    · have hsame : payload.length = (area.toBytesWith attributes).length := by
        rw [hpayload.length_eq, hitems]
      have hinner : PublicArea.read.Refuses payload failure := by
        have hreports := reports_publicArea h.area attributes failure payload hpayload []
        rwa [List.append_nil] at hreports
      rw [← hsame, hcounted]
      exact (recognizes_sub maxPublicArea (by decide)).refuses ⟨payload, hsame ▸ hlimit, rfl, rfl⟩
        ((Refuses.within hinner _).bind _)
    · rw [hitems, hcounted, ← List.nil_append (names ++ rest)]
      refine (recognizes_sub maxPublicArea (by decide)).refuses ⟨_, hlimit, rfl, rfl⟩ ?_
      refine (recognizes_within exhausts_publicArea (.ofBytes _)).refuses
        ⟨rfl, PublicArea.grammar_toBytesWith h.area attributes⟩ ?_
      exact reports_names h.name _ failure names hnames rest

/-- A response that is accepted consists of the items of its value. Any one selector among them may
be replaced by an identifier that has no place there, or any one size by a size beyond its largest:
it is reported, the selector as not supported and the size as the chip's fault. -/
theorem ofResponse_spoiled (h : ofResponse response = .ok value) :
    (∃ header attributes, Item.encode (value.items header attributes) = response) ∧
    ∀ header attributes failure bytes, Item.encode (value.items header attributes) = response →
      Spoiled (value.items header attributes) failure bytes →
      (ofResponse bytes).mapError Malformed.failure = .error failure := by
  obtain ⟨found, area, known, name, qualifiedName, hcode, hbounds, rfl, hresponse, hlength⟩ :=
    exists_parts_of_ofResponse h
  refine ⟨⟨found, known, ?_⟩, fun header attributes failure bytes hitems hspoiled => ?_⟩
  · rw [items, Item.encode_cons, encode_bodyItems, hresponse]
    rfl
  · -- The header of the items is the one that was found.
    have hheader := Header.ofBytes?_append found (bodyBytes area known name qualifiedName)
    rw [← hresponse, ← hitems, items, Item.encode_cons] at hheader
    obtain rfl : header = found :=
      Option.some.inj ((Header.ofBytes?_append header _).symm.trans hheader)
    have hlong : Header.size ≤ header.length.toNat := by
      rw [← hlength, hresponse, List.length_append, header.length_toBytes]
      exact Nat.le_add_right _ _
    cases hspoiled with
    | behind _ hspoiled =>
      have hrefused := reports_body hbounds known attributes failure _ hspoiled []
      rw [List.append_nil] at hrefused
      exact ofResponse_of_refuses hcode hlong hrefused

/-- XOR in the place of the symmetric algorithm of an ECC key, and a second coordinate that claims a
byte more than its largest. -/
theorem ofResponse_spoiled_signingKey :
    let xored := signingKeyResponse.take 24 ++ be16 Algorithm.xor.id ++ signingKeyResponse.drop 26
    let oversized := signingKeyResponse.take 47 ++ be16 67 ++ signingKeyResponse.drop 49
    let items := signingKeyValue.items
      ⟨Header.noSessionsTag, UInt32.ofNat (10 + signingKeyBody.length), 0⟩ 0x00040309
    ofResponse signingKeyResponse = .ok signingKeyValue ∧
      Item.encode items = signingKeyResponse ∧
      Spoiled items .notSupported xored ∧ Spoiled items .deviceBusy oversized ∧
      (ofResponse xored).mapError Malformed.failure = .error .notSupported ∧
      (ofResponse oversized).mapError Malformed.failure = .error .deviceBusy := by
  intro xored oversized items
  have hok : ofResponse signingKeyResponse = .ok signingKeyValue := by decide +kernel
  have hitems : Item.encode items = signingKeyResponse := by decide +kernel
  have hxored : Spoiled (items.take 7 ++ items.drop 7) .notSupported xored :=
    .after (items.take 7) (.selector (by decide))
  have hoversized : Spoiled (items.take 16 ++ items.drop 16) .deviceBusy oversized :=
    .after (items.take 16) (.size (by decide))
  rw [List.take_append_drop] at hxored hoversized
  obtain ⟨-, hreported⟩ := ofResponse_spoiled hok
  exact ⟨hok, hitems, hxored, hoversized, hreported _ _ _ _ hitems hxored,
    hreported _ _ _ _ hitems hoversized⟩

end ReadPublic

end TpmLink
