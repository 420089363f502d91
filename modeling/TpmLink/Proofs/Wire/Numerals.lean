import Mathlib.Tactic.Ring
import TpmLink.Bytes

/-!
# Numerals on the wire

The numerals of a fixed width and the numbers below `256 ^ width` determine each other. A numeral in
front of other bytes can therefore be split off in one way only.
-/

namespace TpmLink

/-! ### Any width -/

theorem foldl_beValue (start : Nat) (bytes : Bytes) :
    bytes.foldl (fun high byte => high * 256 + byte.toNat) start =
      start * 256 ^ bytes.length + beValue bytes := by
  induction bytes generalizing start with
  | nil => simp [beValue]
  | cons byte rest ih =>
    have hstart := ih (start * 256 + byte.toNat)
    have hzero := ih (0 * 256 + byte.toNat)
    simp only [beValue, List.foldl_cons, List.length_cons] at hstart hzero ⊢
    rw [hstart, hzero]
    ring

@[simp] theorem beValue_nil : beValue [] = 0 := rfl

@[simp] theorem beValue_cons (byte : UInt8) (rest : Bytes) :
    beValue (byte :: rest) = byte.toNat * 256 ^ rest.length + beValue rest := by
  simpa [beValue] using foldl_beValue byte.toNat rest

theorem beValue_lt (bytes : Bytes) : beValue bytes < 256 ^ bytes.length := by
  induction bytes with
  | nil => simp
  | cons byte rest ih =>
    have hbyte : byte.toNat + 1 ≤ 256 := byte.toNat_lt
    have hscaled := Nat.mul_le_mul_right (256 ^ rest.length) hbyte
    rw [beValue_cons, List.length_cons, pow_succ]
    rw [Nat.add_mul, Nat.one_mul] at hscaled
    omega

theorem beBytes_succ (width value : Nat) :
    beBytes (width + 1) value = UInt8.ofNat (value / 256 ^ width) :: beBytes width value := by
  have hshift : value >>> (8 * width) = value / 256 ^ width := by
    rw [Nat.shiftRight_eq_div_pow, pow_mul]
    norm_num
  rw [beBytes, hshift]

/-- Writing a number and reading it back cuts it to the width. -/
theorem beValue_beBytes (width value : Nat) :
    beValue (beBytes width value) = value % 256 ^ width := by
  induction width with
  | zero => simp [beBytes, Nat.mod_one]
  | succ width ih =>
    rw [beBytes_succ, beValue_cons, ih, length_beBytes, Nat.mod_pow_succ]
    simp only [UInt8.toNat_ofNat']
    ring

/-- Digits above the width are not written. -/
theorem beBytes_add_mul (width high value : Nat) :
    beBytes width (high * 256 ^ width + value) = beBytes width value := by
  induction width generalizing high with
  | zero => rfl
  | succ width ih =>
    have hsplit : high * 256 ^ (width + 1) + value = (high * 256) * 256 ^ width + value := by ring
    have hpos : 0 < 256 ^ width := Nat.pow_pos (by decide)
    rw [beBytes_succ, beBytes_succ, hsplit, ih (high * 256)]
    congr 1
    rw [Nat.mul_comm (high * 256), Nat.mul_add_div hpos, ← UInt8.toNat_inj]
    simp only [UInt8.toNat_ofNat']
    omega

/-- Reading a numeral and writing it back gives the same bytes. -/
theorem beBytes_beValue (bytes : Bytes) : beBytes bytes.length (beValue bytes) = bytes := by
  induction bytes with
  | nil => rfl
  | cons byte rest ih =>
    have hlt := beValue_lt rest
    have hpos : 0 < 256 ^ rest.length := Nat.pow_pos (by decide)
    have hhead : (byte.toNat * 256 ^ rest.length + beValue rest) / 256 ^ rest.length =
        byte.toNat := by
      rw [Nat.mul_comm, Nat.mul_add_div hpos, Nat.div_eq_of_lt hlt, Nat.add_zero]
    rw [beValue_cons, List.length_cons, beBytes_succ, beBytes_add_mul, ih, hhead, UInt8.ofNat_toNat]

/-! ### Words -/

@[simp] theorem beValue_be16 (value : UInt16) : beValue (be16 value) = value.toNat := by
  rw [be16, beValue_beBytes]
  exact Nat.mod_eq_of_lt value.toNat_lt

@[simp] theorem beValue_be32 (value : UInt32) : beValue (be32 value) = value.toNat := by
  rw [be32, beValue_beBytes]
  exact Nat.mod_eq_of_lt value.toNat_lt

theorem be16_beValue {bytes : Bytes} (h : bytes.length = 2) :
    be16 (UInt16.ofNat (beValue bytes)) = bytes := by
  have hlt := beValue_lt bytes
  rw [h] at hlt
  have hnat : (UInt16.ofNat (beValue bytes)).toNat = beValue bytes := UInt16.toNat_ofNat_of_lt' hlt
  rw [be16, hnat, ← h, beBytes_beValue]

theorem be32_beValue {bytes : Bytes} (h : bytes.length = 4) :
    be32 (UInt32.ofNat (beValue bytes)) = bytes := by
  have hlt := beValue_lt bytes
  rw [h] at hlt
  have hnat : (UInt32.ofNat (beValue bytes)).toNat = beValue bytes := UInt32.toNat_ofNat_of_lt' hlt
  rw [be32, hnat, ← h, beBytes_beValue]

@[simp] theorem be16_inj (a b : UInt16) : be16 a = be16 b ↔ a = b := by
  refine ⟨fun h => ?_, fun h => by rw [h]⟩
  have hvalue := congrArg beValue h
  simpa [UInt16.toNat_inj] using hvalue

@[simp] theorem be32_inj (a b : UInt32) : be32 a = be32 b ↔ a = b := by
  refine ⟨fun h => ?_, fun h => by rw [h]⟩
  have hvalue := congrArg beValue h
  simpa [UInt32.toNat_inj] using hvalue

@[simp] theorem be16_append_inj (a b : UInt16) (s t : Bytes) :
    be16 a ++ s = be16 b ++ t ↔ a = b ∧ s = t := by
  refine ⟨fun h => ?_, fun ⟨hab, hst⟩ => by rw [hab, hst]⟩
  obtain ⟨hbytes, hrest⟩ := List.append_inj h (by simp)
  exact ⟨(be16_inj a b).mp hbytes, hrest⟩

@[simp] theorem be32_append_inj (a b : UInt32) (s t : Bytes) :
    be32 a ++ s = be32 b ++ t ↔ a = b ∧ s = t := by
  refine ⟨fun h => ?_, fun ⟨hab, hst⟩ => by rw [hab, hst]⟩
  obtain ⟨hbytes, hrest⟩ := List.append_inj h (by simp)
  exact ⟨(be32_inj a b).mp hbytes, hrest⟩

/-- A payload that fits its prefix can be split off in one way only. -/
theorem sized_append_inj {p q s t : Bytes} (hp : p.length < 2 ^ 16) (hq : q.length < 2 ^ 16) :
    sized p ++ s = sized q ++ t ↔ p = q ∧ s = t := by
  refine ⟨fun h => ?_, fun ⟨hpq, hst⟩ => by rw [hpq, hst]⟩
  rw [sized, sized, List.append_assoc, List.append_assoc, be16_append_inj] at h
  obtain ⟨hsize, hrest⟩ := h
  have hnat := congrArg UInt16.toNat hsize
  rw [UInt16.toNat_ofNat_of_lt' hp, UInt16.toNat_ofNat_of_lt' hq] at hnat
  exact List.append_inj hrest hnat

end TpmLink
