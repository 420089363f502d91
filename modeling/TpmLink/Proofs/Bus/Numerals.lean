import Mathlib.Data.Nat.Bitwise
import Mathlib.Tactic.Ring
import TpmLink.Bus.Width

/-!
# Numerals on the bus

Numerals with the low byte first. A numeral of two parts is the low part with the high one behind
it, which is why eight bytes can be moved as two halves; and the mask of a width cuts a value to
just what a numeral of that width holds.
-/

namespace TpmLink

/-! ### Any width -/

theorem leValue_append (low high : Bytes) :
    leValue (low ++ high) = leValue low + 256 ^ low.length * leValue high := by
  induction low with
  | nil => simp [leValue]
  | cons byte rest ih =>
    rw [List.cons_append, leValue, ih, leValue, List.length_cons, pow_succ]
    ring

theorem leValue_lt (bytes : Bytes) : leValue bytes < 256 ^ bytes.length := by
  induction bytes with
  | nil => simp [leValue]
  | cons byte rest ih =>
    have hbyte : byte.toNat < 256 := byte.toNat_lt
    rw [leValue, List.length_cons, pow_succ]
    omega

theorem leBytes_add (low high value : Nat) :
    leBytes (low + high) value = leBytes low value ++ leBytes high (value / 256 ^ low) := by
  induction low generalizing value with
  | zero => simp [leBytes]
  | succ low ih =>
    rw [Nat.add_right_comm, leBytes, ih, leBytes, Nat.div_div_eq_div_mul, ← Nat.pow_succ',
      List.cons_append]

/-- Each byte is one digit of the number. -/
theorem getD_leBytes {width index : Nat} (value : Nat) (h : index < width) :
    (leBytes width value).getD index 0 = UInt8.ofNat (value / 256 ^ index) := by
  induction width generalizing index value with
  | zero => exact absurd h (Nat.not_lt_zero _)
  | succ width ih =>
    cases index with
    | zero => simp [leBytes]
    | succ index =>
      rw [leBytes, List.getD_cons_succ, ih _ (Nat.lt_of_succ_lt_succ h), Nat.div_div_eq_div_mul,
        ← Nat.pow_succ']

/-- Digits above the width are not written. -/
theorem leBytes_mod (width value : Nat) :
    leBytes width (value % 256 ^ width) = leBytes width value := by
  induction width generalizing value with
  | zero => rfl
  | succ width ih =>
    have hlow : UInt8.ofNat (value % 256 ^ (width + 1)) = UInt8.ofNat value := by
      rw [← UInt8.toNat_inj, UInt8.toNat_ofNat', UInt8.toNat_ofNat',
        Nat.mod_mod_of_dvd _ (dvd_pow_self 256 (Nat.succ_ne_zero width))]
    have hhigh : value % 256 ^ (width + 1) / 256 = value / 256 % 256 ^ width := by
      rw [Nat.pow_succ', Nat.mod_mul_right_div_self]
    rw [leBytes, leBytes, hlow, hhigh, ih]

/-- Writing a number and reading it back cuts it to the width. -/
theorem leValue_leBytes (width value : Nat) :
    leValue (leBytes width value) = value % 256 ^ width := by
  induction width generalizing value with
  | zero => simp [leBytes, leValue, Nat.mod_one]
  | succ width ih =>
    rw [leBytes, leValue, ih, Nat.pow_succ', Nat.mod_mul, UInt8.toNat_ofNat']

/-- Reading a numeral and writing it back gives the same bytes. -/
theorem leBytes_leValue (bytes : Bytes) : leBytes bytes.length (leValue bytes) = bytes := by
  induction bytes with
  | nil => rfl
  | cons byte rest ih =>
    have hlt : byte.toNat < 256 := byte.toNat_lt
    have hbyte : UInt8.ofNat (byte.toNat + 256 * leValue rest) = byte := by
      rw [← UInt8.toNat_inj, UInt8.toNat_ofNat']
      omega
    have hrest : (byte.toNat + 256 * leValue rest) / 256 = leValue rest := by omega
    rw [leValue, List.length_cons, leBytes, hbyte, hrest, ih]

/-! ### Widths of accesses -/

namespace Width

theorem toNat_mask (width : Width) : width.mask.toNat = 256 ^ width.bytes - 1 := by
  cases width <;> rfl

/-- Bytes are digits of eight bits. -/
theorem pow_bytes (width : Width) : 256 ^ width.bytes = 2 ^ (8 * width.bytes) := by
  rw [pow_mul]
  norm_num

/-- The mask leaves what a numeral of the width holds. -/
theorem toNat_and_mask (width : Width) (value : UInt64) :
    (value &&& width.mask).toNat = value.toNat % 256 ^ width.bytes := by
  rw [UInt64.toNat_and, toNat_mask, pow_bytes, Nat.and_two_pow_sub_one_eq_mod]

theorem leBytes_and_mask (width : Width) (value : UInt64) :
    leBytes width.bytes (value &&& width.mask).toNat = leBytes width.bytes value.toNat := by
  rw [toNat_and_mask, leBytes_mod]

end Width

/-- Two numbers of so many bits each make one of twice as many, as long as a word holds it. -/
theorem ofNat_shiftLeft_or (bits : Nat) {low high : Nat} (hlow : low < 2 ^ bits)
    (hhigh : high < 2 ^ bits) (hbits : 2 * bits ≤ 64) (hpos : 0 < bits) :
    UInt64.ofNat high <<< UInt64.ofNat bits ||| UInt64.ofNat low =
      UInt64.ofNat (low + 2 ^ bits * high) := by
  have hwhole : low + 2 ^ bits * high < 2 ^ 64 := calc
    low + 2 ^ bits * high < 2 ^ bits * (high + 1) := by rw [Nat.mul_succ]; omega
    _ ≤ 2 ^ bits * 2 ^ bits := Nat.mul_le_mul_left _ hhigh
    _ = 2 ^ (2 * bits) := by rw [← pow_add, two_mul]
    _ ≤ 2 ^ 64 := Nat.pow_le_pow_right (by decide) hbits
  have hhigh_le : high ≤ 2 ^ bits * high := Nat.le_mul_of_pos_left _ (Nat.two_pow_pos bits)
  have hamount : (UInt64.ofNat bits).toNat % 64 = bits := by
    rw [UInt64.toNat_ofNat_of_lt' (by rw [UInt64.size]; omega), Nat.mod_eq_of_lt (by omega)]
  have hshift : (UInt64.ofNat high <<< UInt64.ofNat bits).toNat = high <<< bits := by
    rw [UInt64.toNat_shiftLeft, hamount, UInt64.toNat_ofNat_of_lt' (by rw [UInt64.size]; omega)]
    refine Nat.mod_eq_of_lt ?_
    rw [Nat.shiftLeft_eq, Nat.mul_comm]
    omega
  rw [← UInt64.toNat_inj, UInt64.toNat_or, hshift,
    UInt64.toNat_ofNat_of_lt' (by rw [UInt64.size]; omega), ← Nat.shiftLeft_add_eq_or_of_lt hlow,
    Nat.shiftLeft_eq, Nat.mul_comm, Nat.add_comm,
    UInt64.toNat_ofNat_of_lt' (by rw [UInt64.size]; omega)]

/-- Two halves of 32 bits make one number of 64. -/
theorem ofNat_halves {low high : Nat} (hlow : low < 2 ^ 32) (hhigh : high < 2 ^ 32) :
    UInt64.ofNat high <<< 32 ||| UInt64.ofNat low = UInt64.ofNat (low + 2 ^ 32 * high) :=
  ofNat_shiftLeft_or 32 hlow hhigh (by decide) (by decide)

end TpmLink
