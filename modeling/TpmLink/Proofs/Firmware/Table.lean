import TpmLink.Firmware.Locator
import TpmLink.Proofs.Bus.Numerals
import TpmLink.Proofs.Bus.Trace
import TpmLink.Proofs.Slices

/-!
# Which bytes are a firmware table

Bytes are read as a table exactly where firmware laid one out in them. The header is looked at
before it is known that the fields are there; the declared length, which lies between the end of the
fields and the end of the bytes, is what keeps every slice inside.
-/

namespace TpmLink

/-- The slice, if it lies inside the bytes. -/
def slice? (bytes : Bytes) (offset count : Nat) : Option Bytes :=
  if offset + count ≤ bytes.length then some (slice bytes offset count) else none

theorem slice?_of_le {bytes : Bytes} {offset count : Nat} (h : offset + count ≤ bytes.length) :
    slice? bytes offset count = some (slice bytes offset count) := if_pos h

/-- The number at a place where its numeral is known to stand. -/
theorem leValue_slice {bytes : Bytes} {offset width value : Nat} (front rest : Bytes)
    (h : bytes = front ++ (leBytes width value ++ rest)) (hoffset : front.length = offset)
    (hvalue : value < 256 ^ width) : leValue (slice bytes offset width) = value := by
  rw [slice_of_parts front (leBytes width value) rest h hoffset (length_leBytes _ _),
    leValue_leBytes, Nat.mod_eq_of_lt hvalue]

theorem leValue_slice_lt (bytes : Bytes) (offset width : Nat) :
    leValue (slice bytes offset width) < 256 ^ width := by
  have hlength : (slice bytes offset width).length ≤ width := List.length_take_le _ _
  exact Nat.lt_of_lt_of_le (leValue_lt _) (Nat.pow_le_pow_right (by decide) hlength)

theorem leBytes_leValue_slice {bytes : Bytes} {offset width : Nat}
    (h : offset + width ≤ bytes.length) :
    leBytes width (leValue (slice bytes offset width)) = slice bytes offset width := by
  have hbytes := leBytes_leValue (slice bytes offset width)
  rwa [length_slice h] at hbytes

namespace FirmwareTable

variable {raw other : Bytes} {table : FirmwareTable}

/-- There is a whole header, and it starts with the signature. -/
def IsSigned (raw : Bytes) : Prop := headerLength ≤ raw.length ∧ signature <+: raw

/-- The length that the header declares. -/
def declaredLength (raw : Bytes) : Nat := leValue (slice raw 4 4)

/-- The declared length does not cover the fields, or exceeds the bytes. -/
def IsMisdeclared (raw : Bytes) : Prop :=
  declaredLength raw < minLength ∨ raw.length < declaredLength raw

/-- What stands at the places of the fields. -/
def fields (raw : Bytes) : FirmwareTable where
  platformClass := UInt16.ofNat (leValue (slice raw 36 2))
  controlArea := UInt64.ofNat (leValue (slice raw 40 8))
  startMethod := UInt32.ofNat (leValue (slice raw 48 4))

/-! ### The three outcomes -/

theorem not_isSigned_iff :
    ¬ IsSigned raw ↔ raw.length < headerLength ∨ ¬ signature <+: raw := by
  rw [IsSigned, not_and_or, Nat.not_le]

theorem take_eq_signature_iff : raw.take 4 = signature ↔ signature <+: raw := by
  rw [List.prefix_iff_eq_take]
  exact eq_comm

/-- What bytes can be, and what reading them comes to. -/
theorem parse_cases (raw : Bytes) :
    (¬ IsSigned raw ∧ parse raw = .error .notFound) ∨
      (IsSigned raw ∧ IsMisdeclared raw ∧ parse raw = .error .badTable) ∨
      (IsSigned raw ∧ ¬ IsMisdeclared raw ∧ parse raw = .ok (fields raw)) := by
  have hguard : (raw.length < headerLength ∨ raw.take 4 ≠ signature) ↔ ¬ IsSigned raw := by
    rw [not_isSigned_iff, ne_eq, take_eq_signature_iff]
  by_cases hsigned : IsSigned raw
  · by_cases hdeclared : IsMisdeclared raw
    · refine .inr (.inl ⟨hsigned, hdeclared, ?_⟩)
      rw [parse, if_neg (by simpa [hguard] using hsigned)]
      exact if_pos hdeclared
    · refine .inr (.inr ⟨hsigned, hdeclared, ?_⟩)
      rw [parse, if_neg (by simpa [hguard] using hsigned)]
      exact if_neg hdeclared
  · exact .inl ⟨hsigned, if_pos (hguard.mpr hsigned)⟩

theorem parse_eq_notFound_iff : parse raw = .error .notFound ↔ ¬ IsSigned raw := by
  rcases parse_cases raw with h | h | h <;> simp [h]

theorem parse_eq_badTable_iff :
    parse raw = .error .badTable ↔ IsSigned raw ∧ IsMisdeclared raw := by
  rcases parse_cases raw with h | h | h <;> simp [h]

theorem parse_eq_ok_iff :
    parse raw = .ok table ↔ IsSigned raw ∧ ¬ IsMisdeclared raw ∧ fields raw = table := by
  rcases parse_cases raw with h | h | h <;> simp [h]

/-! ### Layouts -/

/-- A table as firmware lays it out: behind the header the platform class at 36, the control area at
40 and the start method at 48. Nothing is said of the rest of the header, of the two reserved bytes
and of what stands behind the fields. -/
structure Layout where
  declared : UInt32
  header : Bytes
  table : FirmwareTable
  reserved : Bytes
  rest : Bytes
  length_header : header.length = 28
  length_reserved : reserved.length = 2

namespace Layout

def bytes (layout : Layout) : Bytes :=
  signature ++ leBytes 4 layout.declared.toNat ++ layout.header ++
    leBytes 2 layout.table.platformClass.toNat ++ layout.reserved ++
    leBytes 8 layout.table.controlArea.toNat ++ leBytes 4 layout.table.startMethod.toNat ++
    layout.rest

/-- The declared length covers the fields and does not exceed the bytes. -/
def IsDeclared (layout : Layout) : Prop :=
  minLength ≤ layout.declared.toNat ∧ layout.declared.toNat ≤ layout.bytes.length

theorem length_bytes (layout : Layout) : layout.bytes.length = minLength + layout.rest.length := by
  simp only [bytes, List.length_append, length_leBytes, layout.length_header,
    layout.length_reserved]
  rfl

theorem isSigned_bytes (layout : Layout) : IsSigned layout.bytes := by
  have hshort : headerLength ≤ minLength := by decide
  refine ⟨by rw [length_bytes]; omega, ?_⟩
  simp only [bytes, List.append_assoc]
  exact List.prefix_append _ _

theorem declaredLength_bytes (layout : Layout) :
    declaredLength layout.bytes = layout.declared.toNat := by
  apply leValue_slice signature
  · simp only [bytes, List.append_assoc]
    rfl
  · rfl
  · exact layout.declared.toNat_lt

theorem fields_bytes (layout : Layout) : fields layout.bytes = layout.table := by
  have hheader := layout.length_header
  have hreserved := layout.length_reserved
  have hclass : leValue (slice layout.bytes 36 2) = layout.table.platformClass.toNat := by
    apply leValue_slice (signature ++ leBytes 4 layout.declared.toNat ++ layout.header)
    · simp only [bytes, List.append_assoc]
      rfl
    · simp [signature, hheader]
    · exact layout.table.platformClass.toNat_lt
  have harea : leValue (slice layout.bytes 40 8) = layout.table.controlArea.toNat := by
    apply leValue_slice (signature ++ leBytes 4 layout.declared.toNat ++ layout.header ++
      leBytes 2 layout.table.platformClass.toNat ++ layout.reserved)
    · simp only [bytes, List.append_assoc]
      rfl
    · simp [signature, hheader, hreserved]
    · exact layout.table.controlArea.toNat_lt
  have hmethod : leValue (slice layout.bytes 48 4) = layout.table.startMethod.toNat := by
    apply leValue_slice (signature ++ leBytes 4 layout.declared.toNat ++ layout.header ++
      leBytes 2 layout.table.platformClass.toNat ++ layout.reserved ++
      leBytes 8 layout.table.controlArea.toNat)
    · simp only [bytes, List.append_assoc]
      rfl
    · simp [signature, hheader, hreserved]
    · exact layout.table.startMethod.toNat_lt
  simp only [fields, hclass, harea, hmethod, UInt16.ofNat_toNat, UInt64.ofNat_toNat,
    UInt32.ofNat_toNat]

end Layout

theorem minLength_le_of_declared (h : ¬ IsMisdeclared raw) : minLength ≤ raw.length := by
  rw [IsMisdeclared] at h
  omega

/-- The layout that bytes with a table in them follow. -/
def Layout.ofBytes (raw : Bytes) (h : minLength ≤ raw.length) : Layout where
  declared := UInt32.ofNat (declaredLength raw)
  header := slice raw 8 28
  table := fields raw
  reserved := slice raw 38 2
  rest := raw.drop 52
  length_header := length_slice (by rw [minLength] at h; omega)
  length_reserved := length_slice (by rw [minLength] at h; omega)

theorem Layout.bytes_ofBytes (h : minLength ≤ raw.length) (hsigned : signature <+: raw) :
    (ofBytes raw h).bytes = raw := by
  have hlong : 52 ≤ raw.length := h
  have hdeclared : leBytes 4 (UInt32.ofNat (declaredLength raw)).toNat = slice raw 4 4 := by
    rw [declaredLength, UInt32.toNat_ofNat_of_lt' (leValue_slice_lt raw 4 4)]
    exact leBytes_leValue_slice (by omega)
  have hclass : leBytes 2 (fields raw).platformClass.toNat = slice raw 36 2 := by
    rw [fields, UInt16.toNat_ofNat_of_lt' (leValue_slice_lt raw 36 2)]
    exact leBytes_leValue_slice (by omega)
  have harea : leBytes 8 (fields raw).controlArea.toNat = slice raw 40 8 := by
    rw [fields, UInt64.toNat_ofNat_of_lt' (leValue_slice_lt raw 40 8)]
    exact leBytes_leValue_slice (by omega)
  have hmethod : leBytes 4 (fields raw).startMethod.toNat = slice raw 48 4 := by
    rw [fields, UInt32.toNat_ofNat_of_lt' (leValue_slice_lt raw 48 4)]
    exact leBytes_leValue_slice (by omega)
  have hsignature : signature = slice raw 0 4 := (take_eq_signature_iff.mpr hsigned).symm
  -- Slice by slice, what stands behind a place is the slice there and what stands behind that.
  calc (ofBytes raw h).bytes
      = slice raw 0 4 ++ slice raw 4 4 ++ slice raw 8 28 ++ slice raw 36 2 ++ slice raw 38 2 ++
          slice raw 40 8 ++ slice raw 48 4 ++ raw.drop 52 := by
        simp only [bytes, ofBytes, hdeclared, hclass, harea, hmethod, ← hsignature]
    _ = raw := by
        simp only [List.append_assoc]
        rw [slice_append_drop raw 48 4, slice_append_drop raw 40 8, slice_append_drop raw 38 2,
          slice_append_drop raw 36 2, slice_append_drop raw 8 28, slice_append_drop raw 4 4,
          slice_append_drop raw 0 4]
        rfl

/-- Bytes are read as a table exactly where firmware laid it out in them. -/
theorem parse_eq_ok_iff_layout :
    parse raw = .ok table ↔
      ∃ layout : Layout, layout.IsDeclared ∧ layout.bytes = raw ∧ layout.table = table := by
  rw [parse_eq_ok_iff]
  constructor
  · rintro ⟨hsigned, hdeclared, rfl⟩
    have hbytes := Layout.bytes_ofBytes (minLength_le_of_declared hdeclared) hsigned.2
    refine ⟨_, ?_, hbytes, rfl⟩
    rw [Layout.IsDeclared, ← Layout.declaredLength_bytes, hbytes]
    rw [IsMisdeclared] at hdeclared
    omega
  · rintro ⟨layout, hdeclared, rfl, rfl⟩
    refine ⟨layout.isSigned_bytes, ?_, layout.fields_bytes⟩
    rw [Layout.IsDeclared] at hdeclared
    rw [IsMisdeclared, Layout.declaredLength_bytes]
    omega

/-! ### What is looked at -/

/-- Reading a table with slices that have to lie inside the bytes: `none` where one does not. -/
def parseInside? (raw : Bytes) : Option (Except LocateFault FirmwareTable) :=
  if raw.length < headerLength then some (.error .notFound)
  else do
    if (← slice? raw 0 4) ≠ signature then return .error .notFound
    let declared := leValue (← slice? raw 4 4)
    if declared < minLength ∨ raw.length < declared then return .error .badTable
    return .ok {
      platformClass := UInt16.ofNat (leValue (← slice? raw 36 2))
      controlArea := UInt64.ofNat (leValue (← slice? raw 40 8))
      startMethod := UInt32.ofNat (leValue (← slice? raw 48 4)) }

/-- No slice is ever outside. -/
theorem parseInside?_eq (raw : Bytes) : parseInside? raw = some (parse raw) := by
  by_cases hshort : raw.length < headerLength
  · rw [parseInside?, if_pos hshort, parse, if_pos (.inl hshort)]
  · have hheader : 36 ≤ raw.length := Nat.not_lt.mp hshort
    have hfront : slice raw 0 4 = raw.take 4 := rfl
    rw [parseInside?, if_neg hshort, slice?_of_le (by omega), slice?_of_le (by omega), hfront]
    by_cases hsigned : raw.take 4 = signature
    · by_cases hdeclared : IsMisdeclared raw
      · have hparse := parse_eq_badTable_iff.mpr
          ⟨⟨hheader, take_eq_signature_iff.mp hsigned⟩, hdeclared⟩
        rw [IsMisdeclared, declaredLength] at hdeclared
        simp [hsigned, hdeclared, hparse]
      · have hlong : 52 ≤ raw.length := minLength_le_of_declared hdeclared
        have hparse := parse_eq_ok_iff.mpr
          ⟨⟨hheader, take_eq_signature_iff.mp hsigned⟩, hdeclared, rfl⟩
        rw [IsMisdeclared, declaredLength] at hdeclared
        rw [slice?_of_le (by omega), slice?_of_le (by omega), slice?_of_le (by omega)]
        simp [hsigned, hdeclared, hparse, fields]
    · have hparse := parse_eq_notFound_iff.mpr
        fun h => hsigned (take_eq_signature_iff.mpr h.2)
      simp [hsigned, hparse]

/-- Bytes of the same number that are alike where the header's front and the fields stand. -/
def Alike (raw other : Bytes) : Prop :=
  other.length = raw.length ∧
    ∀ index, index < 8 ∨ (36 ≤ index ∧ index < 38) ∨ (40 ≤ index ∧ index < 52) →
      other[index]? = raw[index]?

/-- Nothing else is looked at. -/
theorem parse_congr (h : Alike raw other) : parse other = parse raw := by
  obtain ⟨hlength, halike⟩ := h
  have hsignature : other.take 4 = raw.take 4 := by
    change slice other 0 4 = slice raw 0 4
    exact slice_congr fun index _ _ => halike index (by omega)
  have hdeclared : slice other 4 4 = slice raw 4 4 :=
    slice_congr fun index _ _ => halike index (by omega)
  have hclass : slice other 36 2 = slice raw 36 2 :=
    slice_congr fun index _ _ => halike index (by omega)
  have harea : slice other 40 8 = slice raw 40 8 :=
    slice_congr fun index _ _ => halike index (by omega)
  have hmethod : slice other 48 4 = slice raw 48 4 :=
    slice_congr fun index _ _ => halike index (by omega)
  simp only [parse, hlength, hsignature, hdeclared, hclass, harea, hmethod]

/-- Behind a table there may be anything. -/
theorem parse_append (more : Bytes) (h : parse raw = .ok table) :
    parse (raw ++ more) = .ok table := by
  obtain ⟨layout, hdeclared, rfl, rfl⟩ := parse_eq_ok_iff_layout.mp h
  refine parse_eq_ok_iff_layout.mpr ⟨{ layout with rest := layout.rest ++ more }, ?_, ?_, rfl⟩
  · rw [Layout.IsDeclared, Layout.length_bytes] at hdeclared ⊢
    rw [List.length_append]
    dsimp only
    omega
  · simp only [Layout.bytes, List.append_assoc]

end FirmwareTable

/-! ### Locators -/

/-- What a locator over some bytes is by what the bytes are read as: the same fault, or a locator
that finds the chip at the control area, and no chip at address zero. -/
inductive Locator.Follows : Except LocateFault FirmwareTable → Except LocateFault Locator → Prop
  | fault (fault : LocateFault) : Follows (.error fault) (.error fault)
  | absent {table : FirmwareTable} {locator : Locator} (harea : table.controlArea = 0)
      (hbase : locator.base = .error .notFound) : Follows (.ok table) (.ok locator)
  | found {table : FirmwareTable} {locator : Locator} (harea : table.controlArea ≠ 0)
      (hbase : locator.base = .ok table.controlArea.toNat) : Follows (.ok table) (.ok locator)

theorem Locator.follows_map (read : Except LocateFault FirmwareTable) :
    Follows read (read.map ofTable) := by
  cases read with
  | error fault => exact .fault fault
  | ok table =>
    by_cases harea : table.controlArea = 0
    · exact .absent harea (if_pos harea)
    · exact .found harea (if_neg harea)

section
variable {σ : Type} (device : Device σ) (state : σ)

/-- Loading a locator makes no access, and its result is that of reading the table. -/
theorem Locator.run_load (raw : Bytes) :
    (load raw : Script (Except LocateFault Locator)).trace device state = [] ∧
      ((load raw : Script (Except LocateFault Locator)).run device state).1 =
        .ok ((FirmwareTable.parse raw).map ofTable) := by
  unfold load FirmwareTable.load
  cases FirmwareTable.parse raw with
  | error fault => exact ⟨rfl, rfl⟩
  | ok table => exact ⟨rfl, rfl⟩

/-- Any bytes are read without a slice outside them. They are no table without the header and its
signature, a bad one with a length that does not cover the fields or exceeds the bytes, and the
table that is laid out in them otherwise. What stands elsewhere or behind has no part in that. A
locator over the bytes fails alike, and points to the control area whatever the start method. -/
theorem FirmwareTable.parse_isExact (raw : Bytes) :
    parseInside? raw = some (parse raw) ∧
      (parse raw = .error .notFound ↔ raw.length < 36 ∨ ¬ signature <+: raw) ∧
      (parse raw = .error .badTable ↔ (36 ≤ raw.length ∧ signature <+: raw) ∧
        (declaredLength raw < 52 ∨ raw.length < declaredLength raw)) ∧
      (∀ table, parse raw = .ok table ↔
        ∃ layout : Layout, layout.IsDeclared ∧ layout.bytes = raw ∧ layout.table = table) ∧
      (∀ other, Alike raw other → parse other = parse raw) ∧
      (∀ table more, parse raw = .ok table → parse (raw ++ more) = .ok table) ∧
      (Locator.load raw : Script (Except LocateFault Locator)).trace device state = [] ∧
      ∃ loaded, ((Locator.load raw : Script (Except LocateFault Locator)).run device state).1 =
        .ok loaded ∧ Locator.Follows (parse raw) loaded := by
  obtain ⟨htrace, hrun⟩ := Locator.run_load device state raw
  exact ⟨parseInside?_eq raw, parse_eq_notFound_iff.trans not_isSigned_iff, parse_eq_badTable_iff,
    fun _ => parse_eq_ok_iff_layout, fun _ => parse_congr, fun _ more => parse_append more, htrace,
    _, hrun, Locator.follows_map _⟩

end

/-- A table of 60 bytes, eight of them behind the fields. -/
def FirmwareTable.sampleTable : Bytes :=
  signature ++ [60, 0, 0, 0] ++ List.replicate 28 0x20 ++ [0x01, 0x00] ++ [0x00, 0x00] ++
    [0x00, 0x00, 0xD4, 0xFE, 0x00, 0x00, 0x00, 0x00] ++ [0x07, 0x00, 0x00, 0x00] ++
    List.replicate 8 0xEE

/-- The table stays what it is with another reserved byte, and with a byte more behind it. -/
theorem FirmwareTable.parse_isExact_sampleTable :
    parse sampleTable = .ok ⟨1, 0xFED40000, 7⟩ ∧
      parse (sampleTable ++ [0xAA]) = .ok ⟨1, 0xFED40000, 7⟩ ∧
      Alike sampleTable (sampleTable.set 38 0xFF) ∧
      parse (sampleTable.set 38 0xFF) = parse sampleTable := by
  have hparse : parse sampleTable = .ok ⟨1, 0xFED40000, 7⟩ := by decide +kernel
  have halike : Alike sampleTable (sampleTable.set 38 0xFF) :=
    ⟨List.length_set, fun index hindex => List.getElem?_set_ne (by omega)⟩
  obtain ⟨-, -, -, -, hcongr, happend, -⟩ := parse_isExact Script.player [] sampleTable
  exact ⟨hparse, happend _ _ hparse, halike, hcongr _ halike⟩

end TpmLink
