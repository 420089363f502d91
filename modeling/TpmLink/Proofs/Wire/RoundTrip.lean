import TpmLink.Proofs.Wire.PublicArea

/-!
# Reading back a public area

An area within bounds is read back as it was. Any other area is refused, also one whose payloads are
so long that their lengths do not fit their prefixes: what a reader accepts is short, and short
encodings belong to one area only.
-/

namespace TpmLink

open Reader

/-! ### Unique encodings -/

theorem SymmetricDef.toBytes_append_inj {a b : SymmetricDef} {s t : Bytes}
    (h : a.toBytes ++ s = b.toBytes ++ t) : a = b ∧ s = t :=
  (recognizes_symmetricDef true).append_inj (.inl rfl) (.inl rfl) h

/-- Also for parameters that name XOR, which no reader of parameters accepts. -/
theorem RsaParameters.toBytes_append_inj {a b : RsaParameters} {s t : Bytes}
    (h : a.toBytes ++ s = b.toBytes ++ t) : a = b ∧ s = t := by
  simp only [RsaParameters.toBytes, List.append_assoc] at h
  obtain ⟨hsymmetric, h⟩ := SymmetricDef.toBytes_append_inj h
  obtain ⟨hscheme, h⟩ := recognizes_rsaScheme.append_inj trivial trivial h
  obtain ⟨hkeyBits, h⟩ := (be16_append_inj _ _ _ _).mp h
  obtain ⟨hexponent, hrest⟩ := (be32_append_inj _ _ _ _).mp h
  cases a
  cases b
  exact ⟨by simp_all, hrest⟩

theorem EccParameters.toBytes_append_inj {a b : EccParameters} {s t : Bytes}
    (h : a.toBytes ++ s = b.toBytes ++ t) : a = b ∧ s = t := by
  simp only [EccParameters.toBytes, List.append_assoc] at h
  obtain ⟨hsymmetric, h⟩ := SymmetricDef.toBytes_append_inj h
  obtain ⟨hscheme, h⟩ := recognizes_eccScheme.append_inj trivial trivial h
  obtain ⟨hcurve, h⟩ := (be16_append_inj _ _ _ _).mp h
  obtain ⟨hkdf, hrest⟩ := recognizes_kdfScheme.append_inj trivial trivial h
  cases a
  cases b
  exact ⟨by simp_all, hrest⟩

/-- Payloads at the end of an encoding that is short enough for their prefixes. -/
theorem sized_inj {p q : Bytes} (hp : p.length < 2 ^ 16) (hq : q.length < 2 ^ 16)
    (h : sized p = sized q) : p = q := by
  have happend : sized p ++ [] = sized q ++ [] := by rw [h]
  exact ((sized_append_inj hp hq).mp happend).1

theorem PublicDetails.toBytes_inj {a b : PublicDetails} (htype : a.algorithm = b.algorithm)
    (hshort : a.toBytes.length < 2 ^ 16) (h : a.toBytes = b.toBytes) : a = b := by
  have hshort' := hshort
  rw [h] at hshort'
  cases a <;> cases b <;> try cases htype
  case keyedHash.keyedHash.refl scheme unique scheme' unique' =>
    simp only [PublicDetails.toBytes, List.length_append, length_sized] at h hshort hshort'
    obtain ⟨rfl, hunique⟩ := recognizes_keyedHashScheme.append_inj trivial trivial h
    rw [sized_inj (by omega) (by omega) hunique]
  case symCipher.symCipher.refl symmetric unique symmetric' unique' =>
    simp only [PublicDetails.toBytes, List.length_append, length_sized] at h hshort hshort'
    obtain ⟨rfl, hunique⟩ := SymmetricDef.toBytes_append_inj h
    rw [sized_inj (by omega) (by omega) hunique]
  case rsa.rsa.refl parameters modulus parameters' modulus' =>
    simp only [PublicDetails.toBytes, List.length_append, length_sized] at h hshort hshort'
    obtain ⟨rfl, hmodulus⟩ := RsaParameters.toBytes_append_inj h
    rw [sized_inj (by omega) (by omega) hmodulus]
  case ecc.ecc.refl parameters x y parameters' x' y' =>
    simp only [PublicDetails.toBytes, List.length_append, length_sized, List.append_assoc]
      at h hshort hshort'
    obtain ⟨rfl, hcoordinates⟩ := EccParameters.toBytes_append_inj h
    have hx : x.length < 2 ^ 16 := by omega
    have hx' : x'.length < 2 ^ 16 := by omega
    obtain ⟨rfl, hy⟩ := (sized_append_inj hx hx').mp hcoordinates
    rw [sized_inj (by omega) (by omega) hy]

namespace PublicArea

/-- An encoding of less than 65536 bytes determines every field of its area. -/
theorem toBytesWith_inj {a b : PublicArea} {first second : UInt32}
    (hshort : (a.toBytesWith first).length < 2 ^ 16)
    (h : a.toBytesWith first = b.toBytesWith second) :
    first = second ∧ a.nameAlg = b.nameAlg ∧ a.authPolicy = b.authPolicy ∧
      a.details = b.details := by
  have hshort' := hshort
  rw [h, length_toBytesWith] at hshort'
  rw [length_toBytesWith] at hshort
  simp only [toBytesWith, List.append_assoc] at h
  obtain ⟨htype, h⟩ := (Algorithm.toBytes_append_inj _ _ _ _).mp h
  obtain ⟨hname, h⟩ := (be16_append_inj _ _ _ _).mp h
  obtain ⟨hattributes, h⟩ := (be32_append_inj _ _ _ _).mp h
  have hlength : a.authPolicy.length < 2 ^ 16 := by omega
  have hlength' : b.authPolicy.length < 2 ^ 16 := by omega
  obtain ⟨hpolicy, h⟩ := (sized_append_inj hlength hlength').mp h
  exact ⟨hattributes, hname, hpolicy, PublicDetails.toBytes_inj htype (by omega) h⟩

/-! ### Round trip -/

theorem grammar_toBytes {area : PublicArea} (h : area.WithinBounds) : grammar area.toBytes area :=
  ⟨h, area.attributes.bits, (FlagSet.truncate_bits _).symm, area.toBytes_eq⟩

/-- Nothing outside the bounds is encoded like something within them. -/
theorem withinBounds_of_grammar_toBytes {area found : PublicArea}
    (h : grammar area.toBytes found) : area.WithinBounds := by
  obtain ⟨hbounds, attributes, -, hbytes⟩ := h
  -- What is accepted is short, so no prefix in the encoding of the area has been cut.
  have hlength := length_toBytesWith_le hbounds attributes
  rw [← hbytes] at hlength
  rw [toBytes_eq] at hbytes hlength
  obtain ⟨-, -, hpolicy, hdetails⟩ := toBytesWith_inj (by omega) hbytes
  rw [WithinBounds, hpolicy, hdetails]
  exact hbounds

theorem read_toBytes_of_withinBounds {area : PublicArea} (h : area.WithinBounds) :
    PublicArea.read (Cursor.ofBytes area.toBytes) = (.ok area, ⟨area.toBytes.length, []⟩) := by
  refine (exhausts_publicArea _ _ _).mpr ⟨grammar_toBytes h, ?_⟩
  rw [Cursor.ofBytes, Nat.zero_add]

theorem read_toBytes_of_not_withinBounds {area : PublicArea} (h : ¬ area.WithinBounds) :
    ∃ cause after, PublicArea.read (Cursor.ofBytes area.toBytes) = (.error cause, after) := by
  cases hread : PublicArea.read (Cursor.ofBytes area.toBytes) with
  | mk result after =>
    cases result with
    | error cause => exact ⟨cause, after, rfl⟩
    | ok found =>
      have hgrammar := ((exhausts_publicArea _ _ _).mp hread).1
      exact absurd (withinBounds_of_grammar_toBytes hgrammar) h

/-- Within the bounds the size of an area stands unchanged in front of it. -/
theorem size_ofArea {area : PublicArea} (h : area.WithinBounds) :
    (SizedPublic.ofArea area).size.toNat = area.toBytes.length := by
  have hlength := length_toBytesWith_le h area.attributes.bits
  rw [← toBytes_eq] at hlength
  exact UInt16.toNat_ofNat_of_lt' (Nat.lt_of_le_of_lt hlength (by decide))

theorem sub_ofArea {area : PublicArea} (h : area.WithinBounds) (rest : Bytes) :
    Reader.sub maxPublicArea (Cursor.ofBytes ((SizedPublic.ofArea area).toBytes ++ rest)) =
      (.ok (Cursor.ofBytes area.toBytes), ⟨2 + area.toBytes.length, rest⟩) := by
  have hlimit := length_toBytesWith_le_limit h area.attributes.bits
  rw [← toBytes_eq] at hlimit
  have hprefixed : area.toBytes.length < 2 ^ 16 := Nat.lt_of_le_of_lt hlimit (by decide)
  have hend : 2 + area.toBytes.length =
      (Cursor.ofBytes (sized area.toBytes ++ rest)).position + (sized area.toBytes).length := by
    simp [Cursor.ofBytes]
  have hsized := (recognizes_sized maxPublicArea (Cursor.ofBytes (sized area.toBytes ++ rest))
    area.toBytes ⟨2 + area.toBytes.length, rest⟩).mpr
    ⟨sized area.toBytes, ⟨⟨hlimit, hprefixed⟩, rfl⟩, rfl, hend⟩
  exact (bind_eq_ok_iff _ _ _ _ _).mpr ⟨_, _, hsized, rfl⟩

/-- Reading what was encoded gives the area back where it is within the bounds and fails otherwise,
whatever the lengths of its payloads. Within the bounds the limit on the size of a public area never
stands in the way. -/
theorem read_toBytes (area : PublicArea) :
    (area.WithinBounds →
      PublicArea.read (Cursor.ofBytes area.toBytes) = (.ok area, ⟨area.toBytes.length, []⟩) ∧
      area.toBytes.length ≤ maxPublicArea ∧
      ∀ rest, Reader.sub maxPublicArea
          (Cursor.ofBytes ((SizedPublic.ofArea area).toBytes ++ rest)) =
        (.ok (Cursor.ofBytes area.toBytes), ⟨2 + area.toBytes.length, rest⟩)) ∧
    (¬ area.WithinBounds →
      ∃ cause after, PublicArea.read (Cursor.ofBytes area.toBytes) = (.error cause, after)) := by
  refine ⟨fun h => ⟨read_toBytes_of_withinBounds h, ?_, sub_ofArea h⟩,
    read_toBytes_of_not_withinBounds⟩
  rw [toBytes_eq]
  exact Nat.le_trans (length_toBytesWith_le h _) (by decide)

end PublicArea

end TpmLink
