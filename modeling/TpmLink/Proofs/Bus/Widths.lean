import TpmLink.Proofs.Bus.Memory

/-!
# Values of registers as bytes

A value is laid into the front of a buffer and read from there, low byte first. Laying it there
touches no byte behind the width and cuts the value to it; what is read never exceeds the mask and
gives the same bytes again. A wide value is its two halves, the low one in front.
-/

namespace TpmLink

namespace Width

variable {width : Width} {buffer : Bytes}

theorem bytes_pos (width : Width) : 0 < width.bytes := by cases width <;> decide

theorem bytes_le (width : Width) : width.bytes ≤ 8 := by cases width <;> decide

/-- A word holds every number that the width holds. -/
theorem toNat_ofNat {number : Nat} (h : number < 256 ^ width.bytes) :
    (UInt64.ofNat number).toNat = number :=
  UInt64.toNat_ofNat_of_lt' (Nat.lt_of_lt_of_le h (Nat.pow_le_pow_right (by decide) width.bytes_le))

/-! ### Laying and reading -/

theorem encode?_eq (value : UInt64) (h : width.bytes ≤ buffer.length) :
    width.encode? value buffer =
      some (leBytes width.bytes value.toNat ++ buffer.drop width.bytes) := by
  rw [encode?, if_neg (Nat.not_lt.mpr h), leBytes_and_mask]

theorem decode?_eq (h : width.bytes ≤ buffer.length) :
    width.decode? buffer = some (UInt64.ofNat (leValue (buffer.take width.bytes))) := by
  rw [decode?, if_neg (Nat.not_lt.mpr h)]

/-- Only the bytes in front are read. -/
theorem decode?_append {front : Bytes} (h : front.length = width.bytes) (rest : Bytes) :
    width.decode? (front ++ rest) = some (UInt64.ofNat (leValue front)) := by
  rw [decode?_eq (by rw [List.length_append]; omega), List.take_left' h]

theorem leValue_take_lt (h : width.bytes ≤ buffer.length) :
    leValue (buffer.take width.bytes) < 256 ^ width.bytes := by
  have hlt := leValue_lt (buffer.take width.bytes)
  rwa [List.length_take_of_le h] at hlt

/-! ### A value in a buffer -/

/-- The value has been laid into the front of the buffer, and nothing else has changed. -/
structure Lays (width : Width) (value : UInt64) (buffer written : Bytes) : Prop where
  length : written.length = buffer.length
  digit : ∀ index, index < width.bytes →
    written[index]? = some (UInt8.ofNat (value.toNat / 256 ^ index))
  frame : ∀ index, width.bytes ≤ index → written[index]? = buffer[index]?
  decoded : width.decode? written = some (value &&& width.mask)

theorem lays_encode? (value : UInt64) (h : width.bytes ≤ buffer.length) :
    width.Lays value buffer (leBytes width.bytes value.toNat ++ buffer.drop width.bytes) := by
  have hlength := length_leBytes width.bytes value.toNat
  constructor
  · rw [List.length_append, hlength, List.length_drop]
    omega
  · intro index hindex
    rw [List.getElem?_append_left (by omega), ← getD_leBytes value.toNat hindex,
      List.getD_eq_getElem?_getD, List.getElem?_eq_getElem (by omega), Option.getD_some]
  · intro index hindex
    rw [List.getElem?_append_right (by omega), hlength, List.getElem?_drop]
    congr 1
    omega
  · have hlt : value.toNat % 256 ^ width.bytes < 256 ^ width.bytes :=
      Nat.mod_lt _ (Nat.pow_pos (by decide))
    rw [decode?_append hlength, leValue_leBytes, Option.some.injEq, ← UInt64.toNat_inj,
      toNat_ofNat hlt, toNat_and_mask]

/-! ### A value from a buffer -/

/-- The value is what two halves of so many bytes each stand for, the low one in front. -/
def HasHalves (half : Width) (buffer : Bytes) (value : UInt64) : Prop :=
  ∃ low high, half.decode? buffer = some low ∧ half.decode? (buffer.drop half.bytes) = some high ∧
    value = high <<< UInt64.ofNat (8 * half.bytes) ||| low ∧
    value.toNat = low.toNat + 2 ^ (8 * half.bytes) * high.toNat

/-- The value stands in front of the buffer. Wherever it is laid, it brings the bytes with it. -/
structure Reads (width : Width) (buffer : Bytes) (value : UInt64) : Prop where
  decoded : width.decode? buffer = some value
  le_mask : value ≤ width.mask
  restored : width.encode? value buffer = some buffer
  carried : ∀ other : Bytes, width.bytes ≤ other.length →
    width.encode? value other = some (buffer.take width.bytes ++ other.drop width.bytes)
  halves : ∀ half : Width, width.bytes = 2 * half.bytes → half.HasHalves buffer value

/-- A value that is read from a buffer and laid into another takes its bytes there. -/
theorem encode?_leValue {other : Bytes} (h : width.bytes ≤ buffer.length)
    (hother : width.bytes ≤ other.length) :
    width.encode? (UInt64.ofNat (leValue (buffer.take width.bytes))) other =
      some (buffer.take width.bytes ++ other.drop width.bytes) := by
  have hbytes := leBytes_leValue (buffer.take width.bytes)
  rw [List.length_take_of_le h] at hbytes
  rw [encode?_eq _ hother, toNat_ofNat (leValue_take_lt h), hbytes]

theorem hasHalves_leValue {half : Width} (hhalf : width.bytes = 2 * half.bytes)
    (h : width.bytes ≤ buffer.length) :
    half.HasHalves buffer (UInt64.ofNat (leValue (buffer.take width.bytes))) := by
  have hlow : half.bytes ≤ buffer.length := by omega
  have hhigh : half.bytes ≤ (buffer.drop half.bytes).length := by
    rw [List.length_drop]
    omega
  have hlow_lt := leValue_take_lt hlow
  have hhigh_lt := leValue_take_lt hhigh
  have hvalue : leValue (buffer.take width.bytes) = leValue (buffer.take half.bytes) +
      256 ^ half.bytes * leValue ((buffer.drop half.bytes).take half.bytes) := by
    rw [hhalf, two_mul, List.take_add, leValue_append, List.length_take_of_le hlow]
  refine ⟨_, _, decode?_eq hlow, decode?_eq hhigh, ?_, ?_⟩
  · have hbits : 2 * (8 * half.bytes) ≤ 64 := by have := width.bytes_le; omega
    have hpos : 0 < 8 * half.bytes := by have := half.bytes_pos; omega
    rw [pow_bytes] at hlow_lt hhigh_lt hvalue
    rw [hvalue, ofNat_shiftLeft_or _ hlow_lt hhigh_lt hbits hpos]
  · rw [toNat_ofNat (leValue_take_lt h), toNat_ofNat hlow_lt, toNat_ofNat hhigh_lt, hvalue,
      pow_bytes]

theorem reads_decode? (h : width.bytes ≤ buffer.length) :
    width.Reads buffer (UInt64.ofNat (leValue (buffer.take width.bytes))) where
  decoded := decode?_eq h
  le_mask := by
    have hlt := leValue_take_lt h
    rw [UInt64.le_iff_toNat_le, toNat_ofNat hlt, toNat_mask]
    omega
  restored := by rw [encode?_leValue h h, List.take_append_drop]
  carried := fun _ hother => encode?_leValue h hother
  halves := fun _ hhalf => hasHalves_leValue hhalf h

/-! ### The whole codec -/

/-- Every value can be laid into a buffer that is long enough, and is read back cut to the width.
Such a buffer always holds a value, which stands for its bytes and for the halves they make up. -/
theorem codec_isExact (width : Width) (buffer : Bytes) (h : width.bytes ≤ buffer.length) :
    (∀ value, ∃ written, width.encode? value buffer = some written ∧
      width.Lays value buffer written) ∧
    (∀ value, (value &&& width.mask).toNat = value.toNat % 2 ^ (8 * width.bytes)) ∧
    ∃ found, width.Reads buffer found := by
  refine ⟨fun value => ⟨_, encode?_eq value h, lays_encode? value h⟩, fun value => ?_,
    _, reads_decode? h⟩
  rw [toNat_and_mask, pow_bytes]

/-- Two bytes in front of a third. A longer value is cut to them, and they are two halves. -/
theorem codec_isExact_threeBytes :
    word.bytes ≤ [0x34, 0x12, 0xFF].length ∧
      word.encode? 0xABCDEF [0x34, 0x12, 0xFF] = some [0xEF, 0xCD, 0xFF] ∧
      word.Lays 0xABCDEF [0x34, 0x12, 0xFF] [0xEF, 0xCD, 0xFF] ∧
      word.Reads [0x34, 0x12, 0xFF] 0x1234 ∧ word.bytes = 2 * byte.bytes ∧
      byte.HasHalves [0x34, 0x12, 0xFF] 0x1234 := by
  have hlong : word.bytes ≤ [0x34, 0x12, 0xFF].length := by decide
  obtain ⟨hlays, -, found, hreads⟩ := codec_isExact word [0x34, 0x12, 0xFF] hlong
  obtain ⟨written, hencoded, hwritten⟩ := hlays 0xABCDEF
  have hbytes : word.encode? 0xABCDEF [0x34, 0x12, 0xFF] = some [0xEF, 0xCD, 0xFF] := by decide
  obtain rfl : [0xEF, 0xCD, 0xFF] = written := Option.some.inj (hbytes.symm.trans hencoded)
  have hvalue : word.decode? [0x34, 0x12, 0xFF] = some 0x1234 := by decide
  obtain rfl : 0x1234 = found := Option.some.inj (hvalue.symm.trans hreads.decoded)
  have hhalf : word.bytes = 2 * byte.bytes := rfl
  exact ⟨hlong, hbytes, hwritten, hreads, hhalf, hreads.halves byte hhalf⟩

end Width

end TpmLink
