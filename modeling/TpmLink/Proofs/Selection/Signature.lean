import Mathlib.Data.Nat.Bitwise
import TpmLink.Selection

/-!
# Which signature two words carry

A field of a register is a number in some of its bits. The three signatures exclude each other, so
the first one that matches is the only one, and any two words show exactly one interface.
-/

namespace TpmLink

/-! ### Fields as numbers -/

namespace Register

/-- The number in the bits from `high` down to `low`. -/
def bitsOf (word : UInt32) (high low : Nat) : Nat := word.toNat / 2 ^ low % 2 ^ (high + 1 - low)

/-- Is the bit one? -/
def bitOf (word : UInt32) (bit : Nat) : Bool := word.toNat.testBit bit

theorem toNat_ofNat_mod {n : Nat} (h : n < 32) : (UInt32.ofNat n).toNat % 32 = n := by
  have hsize : n < UInt32.size := by
    rw [UInt32.size]
    omega
  rw [UInt32.toNat_ofNat_of_lt' hsize, Nat.mod_eq_of_lt h]

theorem toNat_shiftRight_ofNat (word : UInt32) {low : Nat} (h : low < 32) :
    (word >>> UInt32.ofNat low).toNat = word.toNat / 2 ^ low := by
  rw [UInt32.toNat_shiftRight, toNat_ofNat_mod h, Nat.shiftRight_eq_div_pow]

/-- Ones in the lowest bits. -/
theorem toNat_ones {width : Nat} (h : width < 32) :
    ((1 : UInt32) <<< UInt32.ofNat width - 1).toNat = 2 ^ width - 1 := by
  have hlt : 2 ^ width < 2 ^ 32 := Nat.pow_lt_pow_right (by decide) h
  have hpos : 0 < 2 ^ width := Nat.two_pow_pos width
  have hshift : ((1 : UInt32) <<< UInt32.ofNat width).toNat = 2 ^ width := by
    rw [UInt32.toNat_shiftLeft, toNat_ofNat_mod h, UInt32.toNat_one, Nat.one_shiftLeft,
      Nat.mod_eq_of_lt hlt]
  rw [UInt32.toNat_sub_of_le _ _ (by rw [UInt32.le_iff_toNat_le, hshift]; exact hpos), hshift]
  rfl

namespace Field

theorem toNat_bits_range {name : String} {high low : Nat} (word : UInt32) (hlow : low < 32)
    (hwidth : high + 1 - low < 32) :
    ((range name high low).bits word).toNat = bitsOf word high low := by
  change (word >>> UInt32.ofNat low &&& _).toNat = _
  rw [UInt32.toNat_and, toNat_shiftRight_ofNat word hlow, toNat_ones hwidth,
    Nat.and_two_pow_sub_one_eq_mod, bitsOf]

theorem toNat_bits_flag {name : String} {bit : Nat} (word : UInt32) (h : bit < 32) :
    ((flag name bit).bits word).toNat = (bitOf word bit).toNat := by
  change (word >>> UInt32.ofNat bit &&& 1).toNat = _
  rw [UInt32.toNat_and, toNat_shiftRight_ofNat word h, UInt32.toNat_one, Nat.and_one_is_mod, bitOf,
    Nat.toNat_testBit]

theorem isSet_flag {name : String} {bit : Nat} (word : UInt32) (h : bit < 32) :
    (flag name bit).isSet word = bitOf word bit := by
  have hbits : ((flag name bit).bits word).toNat = (bitOf word bit).toNat :=
    toNat_bits_flag word h
  cases hbit : bitOf word bit with
  | false =>
    rw [hbit] at hbits
    have hzero : (flag name bit).bits word = 0 := UInt32.toNat_inj.mp hbits
    simp [isSet, hzero]
  | true =>
    rw [hbit] at hbits
    have hone : (flag name bit).bits word = 1 := UInt32.toNat_inj.mp hbits
    simp [isSet, hone]

theorem bits_range_eq_iff {name : String} {high low : Nat} {word value : UInt32} (hlow : low < 32)
    (hwidth : high + 1 - low < 32) :
    (range name high low).bits word = value ↔ bitsOf word high low = value.toNat := by
  rw [← toNat_bits_range word hlow hwidth, UInt32.toNat_inj]

end Field

end Register

namespace Selection

open Register

variable {identifier capability : UInt32} {interface : Interface}

/-! ### Signatures -/

/-- The signature of a command buffer. -/
def IsCommandBuffer (identifier : UInt32) : Prop :=
  bitsOf identifier 3 0 = 1 ∧ bitsOf identifier 7 4 = 1 ∧ bitOf identifier 14 = true

/-- The signature of the FIFO of the platform profile. -/
def IsFifo (identifier capability : UInt32) : Prop :=
  bitsOf identifier 7 0 = 0 ∧ bitOf identifier 13 = true ∧ bitsOf capability 30 28 = 3

/-- The signature of the older FIFO. -/
def IsTis (identifier : UInt32) : Prop := bitsOf identifier 3 0 = 15

/-- What the bit for it says about the bypass. -/
def bypassOf (identifier : UInt32) : IdleBypass :=
  if bitOf identifier 9 then .supported else .notSupported

/-- The interface that the words show. -/
inductive Shows (identifier capability : UInt32) : Interface → Prop
  | commandBuffer (h : IsCommandBuffer identifier) :
    Shows identifier capability ⟨.commandBuffer, bypassOf identifier⟩
  | fifo (h : IsFifo identifier capability) : Shows identifier capability ⟨.fifo, .unknown⟩
  | tis (h : IsTis identifier) : Shows identifier capability ⟨.tis, .unknown⟩
  | unsupported (hbuffer : ¬ IsCommandBuffer identifier) (hfifo : ¬ IsFifo identifier capability)
      (htis : ¬ IsTis identifier) : Shows identifier capability .unsupported

/-- The low byte is zero where both its halves are. -/
theorem bitsOf_low_byte : bitsOf identifier 7 0 = 0 ↔
    bitsOf identifier 3 0 = 0 ∧ bitsOf identifier 7 4 = 0 := by
  simp only [bitsOf]
  omega

theorem IsTis.not_isCommandBuffer (h : IsTis identifier) : ¬ IsCommandBuffer identifier := by
  intro hbuffer
  rw [IsTis] at h
  have hkind := hbuffer.1
  omega

theorem IsFifo.not_isCommandBuffer (h : IsFifo identifier capability) :
    ¬ IsCommandBuffer identifier := by
  intro hbuffer
  have hkind := hbuffer.1
  have hlow := (bitsOf_low_byte.mp h.1).1
  omega

theorem IsTis.not_isFifo (h : IsTis identifier) : ¬ IsFifo identifier capability := by
  intro hfifo
  rw [IsTis] at h
  have hlow := (bitsOf_low_byte.mp hfifo.1).1
  omega

/-! ### The tests -/

theorem isCommandBuffer_iff :
    (InterfaceId.interfaceType.bits identifier = InterfaceId.typeCommandBuffer
      ∧ InterfaceId.version.bits identifier = InterfaceId.versionCommandBuffer
      ∧ InterfaceId.commandBuffer.isSet identifier) ↔ IsCommandBuffer identifier := by
  rw [InterfaceId.interfaceType, InterfaceId.version, InterfaceId.commandBuffer,
    Field.bits_range_eq_iff (by decide) (by decide),
    Field.bits_range_eq_iff (by decide) (by decide), Field.isSet_flag identifier (by decide)]
  rfl

theorem isFifo_iff :
    (InterfaceId.interfaceType.bits identifier = InterfaceId.typeFifo
      ∧ InterfaceId.version.bits identifier = InterfaceId.versionFifo
      ∧ InterfaceId.fifo.isSet identifier
      ∧ Capability.interfaceVersion.bits capability = Capability.versionPtp) ↔
        IsFifo identifier capability := by
  rw [InterfaceId.interfaceType, InterfaceId.version, InterfaceId.fifo,
    Capability.interfaceVersion, Field.bits_range_eq_iff (by decide) (by decide),
    Field.bits_range_eq_iff (by decide) (by decide), Field.isSet_flag identifier (by decide),
    Field.bits_range_eq_iff (by decide) (by decide), IsFifo, bitsOf_low_byte, and_assoc]
  rfl

theorem isTis_iff :
    InterfaceId.interfaceType.bits identifier = InterfaceId.typeTis ↔ IsTis identifier := by
  rw [InterfaceId.interfaceType, Field.bits_range_eq_iff (by decide) (by decide)]
  rfl

theorem ofState_idleBypass :
    IdleBypass.ofState (InterfaceId.idleBypass.bits identifier).toUInt8 = bypassOf identifier := by
  have hbits : (InterfaceId.idleBypass.bits identifier).toNat = (bitOf identifier 9).toNat :=
    Field.toNat_bits_flag identifier (by decide)
  rw [bypassOf]
  cases hbit : bitOf identifier 9 with
  | false =>
    rw [hbit] at hbits
    have hzero : InterfaceId.idleBypass.bits identifier = 0 := UInt32.toNat_inj.mp hbits
    rw [hzero]
    rfl
  | true =>
    rw [hbit] at hbits
    have hone : InterfaceId.idleBypass.bits identifier = 1 := UInt32.toNat_inj.mp hbits
    rw [hone]
    rfl

theorem shows_ofSignature (identifier capability : UInt32) :
    Shows identifier capability (ofSignature identifier capability) := by
  dsimp only [ofSignature]
  by_cases hbuffer : IsCommandBuffer identifier
  · rw [if_pos (isCommandBuffer_iff.mpr hbuffer), ofState_idleBypass]
    exact .commandBuffer hbuffer
  · rw [if_neg (mt isCommandBuffer_iff.mp hbuffer)]
    by_cases hfifo : IsFifo identifier capability
    · rw [if_pos (isFifo_iff.mpr hfifo)]
      exact .fifo hfifo
    · rw [if_neg (mt isFifo_iff.mp hfifo)]
      by_cases htis : IsTis identifier
      · rw [if_pos (isTis_iff.mpr htis)]
        exact .tis htis
      · rw [if_neg (mt isTis_iff.mp htis)]
        exact .unsupported hbuffer hfifo htis

theorem Shows.unique {other : Interface} (h : Shows identifier capability interface)
    (h' : Shows identifier capability other) : interface = other := by
  cases h with
  | commandBuffer hbuffer =>
    cases h' with
    | commandBuffer => rfl
    | fifo hfifo => exact absurd hbuffer hfifo.not_isCommandBuffer
    | tis htis => exact absurd hbuffer htis.not_isCommandBuffer
    | unsupported hnot => exact absurd hbuffer hnot
  | fifo hfifo =>
    cases h' with
    | commandBuffer hbuffer => exact absurd hbuffer hfifo.not_isCommandBuffer
    | fifo => rfl
    | tis htis => exact absurd hfifo htis.not_isFifo
    | unsupported _ hnot => exact absurd hfifo hnot
  | tis htis =>
    cases h' with
    | commandBuffer hbuffer => exact absurd hbuffer htis.not_isCommandBuffer
    | fifo hfifo => exact absurd hfifo htis.not_isFifo
    | tis => rfl
    | unsupported _ _ hnot => exact absurd htis hnot
  | unsupported hbuffer hfifo htis =>
    cases h' with
    | commandBuffer hyes => exact absurd hyes hbuffer
    | fifo hyes => exact absurd hyes hfifo
    | tis hyes => exact absurd hyes htis
    | unsupported => rfl

/-- The first signature that matches is the one that is shown. -/
theorem ofSignature_eq_iff :
    ofSignature identifier capability = interface ↔ Shows identifier capability interface := by
  constructor
  · rintro rfl
    exact shows_ofSignature identifier capability
  · exact (shows_ofSignature identifier capability).unique

/-- A command buffer always says whether it can be bypassed. -/
theorem Shows.bypass_ne_unknown {bypass : IdleBypass}
    (h : Shows identifier capability ⟨.commandBuffer, bypass⟩) : bypass ≠ .unknown := by
  cases h
  rw [bypassOf]
  split <;> decide

end Selection

end TpmLink
