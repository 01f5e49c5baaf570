/-
**The exact value of a double.**

A finite double is a sign and a mantissa scaled by a power of two, hence a rational number.  The
units that the rest of the library counts doubles in are this number again: its magnitude is the
number of units divided by `2 ^ 1074`.

Main definitions

* `Calculator.Double.value` — the number that a finite double stands for.

Main results

* `Calculator.Double.isFinite_iff` — the finite doubles are those whose bits lie below the ones of
  infinity;
* `Calculator.Double.value_eq`, `Calculator.Double.abs_value` — value, sign and units;
* `Calculator.Double.value_neg`, `Calculator.Double.value_of_bits` — the value of an opposite, and
  that of a double with given fields;
* `Calculator.Double.units_of_value_eq` — the units of a whole number;
* `Calculator.Double.beq_zero_iff`, `Calculator.Double.magnitudeBits_eq_zero_iff` — the doubles that
  are equal to zero;
* `Calculator.Double.ofMagnitudeBits_magnitudeBits`,
  `Calculator.Double.neg_ofMagnitudeBits_magnitudeBits` — a double is made of the bits of its
  magnitude and of its sign.
-/

import Calculator.Proofs.DoubleSign
import Calculator.Proofs.Numerals

set_option autoImplicit false

namespace Calculator.Double

open Float.Model (Format UnpackedFloat)
open Float.Model.UnpackedFloat (Sign pack_unpack_of_valid unpackExponent unpackMantissa unpackSign)

/-! ### Fields -/

section Fields

variable (b : BitVec format.numBits)

theorem toNat_unpackExponent :
    (unpackExponent b).toNat = b.toNat / 0x10000000000000 % 0x800 := by
  simp [unpackExponent, BitVec.extractLsb, Nat.shiftRight_eq_div_pow]

theorem toNat_unpackMantissa : (unpackMantissa b).toNat = b.toNat % 0x10000000000000 := by
  simp [unpackMantissa, BitVec.extractLsb]

/-- Without the sign a word is its exponent field in front of its mantissa field. -/
theorem magnitude_eq_fields :
    b.toNat % signBit = (unpackExponent b).toNat * leadingBit + (unpackMantissa b).toNat := by
  rw [toNat_unpackExponent, toNat_unpackMantissa, signBit, leadingBit]
  omega

/-- The units of a word whose exponent field is zero. -/
theorem unitsOfBits_of_subnormal {m : Nat} (hm : m < leadingBit) : unitsOfBits m = m := by
  rw [unitsOfBits, if_pos]
  · exact Nat.mod_eq_of_lt hm
  · exact Nat.div_eq_of_lt hm

/-- The units of a word whose exponent field is not zero. -/
theorem unitsOfBits_of_normal {e m : Nat} (he : e ≠ 0) (hm : m < leadingBit) :
    unitsOfBits (e * leadingBit + m) = (leadingBit + m) * 2 ^ (e - 1) := by
  have hexponent : (e * leadingBit + m) / leadingBit = e := by
    rw [Nat.add_comm, Nat.add_mul_div_right _ _ (by decide), Nat.div_eq_of_lt hm, Nat.zero_add]
  have hmantissa : (e * leadingBit + m) % leadingBit = m := by
    rw [Nat.add_comm, Nat.add_mul_mod_self_right, Nat.mod_eq_of_lt hm]
  rw [unitsOfBits, hexponent, hmantissa, if_neg he]
  rfl

end Fields

/-! ### Value -/

/-- The factor that a sign stands for. -/
def signFactor : Sign → ℚ
  | .positive => 1
  | .negative => -1

/-- The number that is stood for, zero for the ones that are not finite. -/
def numberOf : UnpackedFloat → ℚ
  | .finite s m e _ => signFactor s * (m * 2 ^ e)
  | _ => 0

/-- The number that a finite double stands for. -/
def value (v : Float) : ℚ := numberOf (unpacked v)

theorem unitExponent_eq : unitExponent = 1074 := by
  unfold unitExponent
  rfl

theorem one_eq : one = 2 ^ unitExponent := rfl

/-- Units are scaled by the power of two that makes the smallest double one unit. -/
theorem two_zpow_sub (k : Nat) : (2 : ℚ) ^ ((k : Int) - 1074) = 2 ^ k / one := by
  rw [zpow_sub₀ two_ne_zero, zpow_natCast, one_eq, unitExponent_eq, Nat.cast_pow, Nat.cast_ofNat]
  rfl

/-- A word is finite if its exponent field is not the one of infinity. -/
theorem isFinite_unpack (b : BitVec format.numBits) :
    (UnpackedFloat.unpack format b).isFinite = true ↔ b.toNat % signBit < infinityBits := by
  have hones : (-1#11).toNat = 2047 := rfl
  have he : (unpackExponent b).toNat < 2048 := (unpackExponent b).isLt
  have hm : (unpackMantissa b).toNat < 0x10000000000000 := (unpackMantissa b).isLt
  have hinfinity : unpackExponent b = -1#11 ↔ ¬ b.toNat % signBit < infinityBits := by
    rw [magnitude_eq_fields, infinityBits, leadingBit, ← BitVec.toNat_inj, hones]
    omega
  rw [← not_iff_not, ← hinfinity, UnpackedFloat.unpack]
  split
  · rename_i hexponent
    simp only [hexponent, iff_true]
    split <;> simp [UnpackedFloat.isFinite]
  · rename_i hexponent
    simp only [hexponent, iff_false, not_not]
    split
    · split <;> rfl
    · rfl

/-- The mantissa of a word whose exponent field is not zero has a leading digit. -/
theorem toNat_leadingDigit_append (m : BitVec 52) :
    (1#1 ++ m).toNat = leadingBit + m.toNat := by
  have hor := Nat.two_pow_add_eq_or_of_lt m.isLt 1
  rw [Nat.mul_one] at hor
  rw [BitVec.toNat_append, BitVec.toNat_ofNat, Nat.one_mod, Nat.one_shiftLeft, ← hor]
  rfl

/-- What a finite word stands for is its sign and its units. -/
theorem numberOf_unpack {b : BitVec format.numBits}
    (h : (UnpackedFloat.unpack format b).isFinite = true) :
    numberOf (UnpackedFloat.unpack format b) =
      signFactor (Sign.ofBitVec (unpackSign b)) * (unitsOfBits (b.toNat % signBit) / one) := by
  have hbias : ((format.exponentBias : Int) + format.mantissaBitsWithoutImplicit) = 1075 := rfl
  rw [magnitude_eq_fields]
  revert h
  simp only [UnpackedFloat.unpack, hbias]
  split
  · split <;> intro h <;> cases h
  · intro _
    split
    · rename_i hexponent
      have hzero : (unpackExponent b).toNat = 0 := congrArg BitVec.toNat hexponent
      rw [hzero, Nat.zero_mul, Nat.zero_add, unitsOfBits_of_subnormal (unpackMantissa b).isLt]
      split
      · rename_i hmantissa
        rw [hmantissa]
        simp [numberOf]
      · have hscale : ((0 : Nat) : Int) - 1075 + 1 = ((0 : Nat) : Int) - 1074 := by omega
        rw [numberOf, hscale, two_zpow_sub, pow_zero, mul_one_div]
    · rename_i hexponent
      have he : (unpackExponent b).toNat ≠ 0 := fun h => hexponent (BitVec.toNat_inj.1 h)
      have hscale : ((unpackExponent b).toNat : Int) - 1075 =
          (((unpackExponent b).toNat - 1 : Nat) : Int) - 1074 := by
        omega
      rw [unitsOfBits_of_normal he (unpackMantissa b).isLt, numberOf, toNat_leadingDigit_append,
        hscale, two_zpow_sub, mul_div_assoc', Nat.cast_mul, Nat.cast_pow, Nat.cast_ofNat]

/-! ### Sign and units of a double -/

section Value

variable {v : Float}

/-- The sign of a word is zero if its highest bit is not set. -/
theorem unpackSign_eq_zero_iff (b : BitVec format.numBits) :
    unpackSign b = 0#1 ↔ b.toNat < signBit := by
  have htwo : ∀ s : BitVec 1, s = 0#1 ↔ ¬ s = 1#1 := by decide
  rw [htwo, unpackSign_eq_one_iff, not_le]

/-- The finite doubles are those whose bits, the sign aside, lie below the ones of infinity. -/
theorem isFinite_iff : v.isFinite = true ↔ magnitudeBits v < infinityBits :=
  isFinite_unpack v.toBits.toBitVec

/-- A finite double is worth its units, with its sign. -/
theorem value_eq (hv : v.isFinite) :
    value v = (if isNegative v then -1 else 1) * (units v / one) := by
  let b : BitVec format.numBits := v.toBits.toBitVec
  have hsign : signFactor (Sign.ofBitVec (unpackSign b)) = if isNegative v then -1 else 1 := by
    cases hnegative : isNegative v with
    | true =>
        have hone := (unpackSign_eq_one_iff b).2 (of_decide_eq_true hnegative)
        rw [hone]
        rfl
    | false =>
        have hzero := (unpackSign_eq_zero_iff b).2 (not_le.1 (of_decide_eq_false hnegative))
        rw [hzero]
        rfl
  rw [← hsign]
  exact numberOf_unpack hv

theorem abs_value (hv : v.isFinite) : |value v| = units v / one := by
  rw [value_eq hv, abs_mul, abs_of_nonneg (by positivity : (0 : ℚ) ≤ units v / one)]
  split <;> simp

theorem units_eq_zero_iff (hv : v.isFinite) : units v = 0 ↔ value v = 0 := by
  have hone : (one : ℚ) ≠ 0 := by exact_mod_cast one_pos.ne'
  rw [← abs_eq_zero, abs_value hv, div_eq_zero_iff, or_iff_left hone, Nat.cast_eq_zero]

/-- Two doubles are equal to zero. -/
theorem beq_zero_iff (v : Float) : (v == 0) = true ↔ v = 0 ∨ v = -0 := by
  have hnan : (0 : Float) ≠ Float.nan := by decide
  have hsigned : (-0 : Float) ≠ Float.nan := by decide
  rw [Float.beq_iff_ne_nan_and_eq]
  constructor
  · rintro ⟨-, -, h | ⟨h, -⟩ | ⟨h, -⟩⟩
    · exact .inl h
    · exact .inl h
    · exact .inr h
  · rintro (rfl | rfl)
    · exact ⟨hnan, hnan, .inl rfl⟩
    · exact ⟨hsigned, hnan, .inr (.inr ⟨rfl, rfl⟩)⟩

/-- A double without the sign bit is made of its bits. -/
theorem ofMagnitudeBits_magnitudeBits (h : isNegative v = false) :
    ofMagnitudeBits (magnitudeBits v) = v := by
  have hlt : v.toBits.toNat < signBit := not_le.1 (of_decide_eq_false h)
  rw [ofMagnitudeBits, magnitudeBits, Nat.mod_eq_of_lt hlt, UInt64.ofNat_toNat, Float.ofBits_toBits]

/-- A double with the sign bit is the opposite of the one made of its other bits. -/
theorem neg_ofMagnitudeBits_magnitudeBits (h : isNegative v = true) :
    -ofMagnitudeBits (magnitudeBits v) = v := by
  let b : BitVec format.numBits := v.toBits.toBitVec
  let m : BitVec format.numBits := (UInt64.ofNat (magnitudeBits v)).toBitVec
  have hm : m.toNat = b.toNat % signBit := by
    have hlt : magnitudeBits v < 2 ^ 64 :=
      Nat.lt_trans (Nat.mod_lt _ (by decide)) (by decide : signBit < 2 ^ 64)
    exact UInt64.toNat_ofNat_of_lt hlt
  have hexponent : unpackExponent m = unpackExponent b := by
    rw [← BitVec.toNat_inj, toNat_unpackExponent, toNat_unpackExponent, hm, signBit]
    omega
  have hmantissa : unpackMantissa m = unpackMantissa b := by
    rw [← BitVec.toNat_inj, toNat_unpackMantissa, toNat_unpackMantissa, hm, signBit]
    omega
  have hsign : unpackSign m = 0#1 :=
    (unpackSign_eq_zero_iff m).2 (hm ▸ Nat.mod_lt _ (by decide))
  have hnegative : unpackSign b = 1#1 := (unpackSign_eq_one_iff b).2 (of_decide_eq_true h)
  have hneg : (UnpackedFloat.unpack format m).neg = UnpackedFloat.unpack format b := by
    rw [← word_fields m, ← word_fields b, neg_unpack_word, hexponent, hmantissa, hsign, hnegative]
    rfl
  calc -ofMagnitudeBits (magnitudeBits v)
      = packed (UnpackedFloat.unpack format
          (UnpackedFloat.pack format (UnpackedFloat.unpack format m))).neg := rfl
    _ = packed (UnpackedFloat.unpack format b) := by rw [unpack_pack_unpack, hneg]
    _ = v := Float.ofBits_toBits v

theorem ofMagnitudeBits_zero : ofMagnitudeBits 0 = 0 := rfl

/-- Only the two zeros have no bits but the sign. -/
theorem magnitudeBits_eq_zero_iff : magnitudeBits v = 0 ↔ (v == 0) = true := by
  rw [beq_zero_iff]
  constructor
  · intro hbits
    cases hnegative : isNegative v with
    | true =>
        right
        rw [← neg_ofMagnitudeBits_magnitudeBits hnegative, hbits, ofMagnitudeBits_zero]
    | false =>
        left
        rw [← ofMagnitudeBits_magnitudeBits hnegative, hbits, ofMagnitudeBits_zero]
  · rintro (rfl | rfl) <;> rfl

/-- A number that is equal to zero is finite. -/
theorem isFinite_of_beq_zero (h : (v == 0) = true) : v.isFinite := by
  rw [isFinite_iff, magnitudeBits_eq_zero_iff.2 h]
  decide

/-- A number that is equal to zero has no units. -/
theorem units_of_beq_zero (h : (v == 0) = true) : units v = 0 := by
  rw [units, magnitudeBits_eq_zero_iff.2 h]
  rfl

/-! ### Given values -/

/-- The number that the opposite of a double stands for. -/
theorem value_neg (v : Float) : value (-v) = -value v := by
  rw [value, value, unpacked_neg]
  cases unpacked v with
  | finite s m e hm => cases s <;> simp [UnpackedFloat.neg, numberOf, signFactor]
  | _ => simp [UnpackedFloat.neg, numberOf]

/-- The number that a double stands for whose exponent field is not zero. -/
theorem value_of_bits (hv : v.isFinite) {e m : Nat} (he : e ≠ 0) (hm : m < leadingBit)
    (hbits : magnitudeBits v = e * leadingBit + m) :
    value v = (if isNegative v then -1 else 1) * ((leadingBit + m) * 2 ^ ((e : Int) - 1075)) := by
  have hexponent : (e : Int) - 1075 = ((e - 1 : Nat) : Int) - 1074 := by omega
  rw [value_eq hv, units, hbits, unitsOfBits_of_normal he hm, hexponent, two_zpow_sub]
  push_cast
  ring

theorem value_zero : value 0 = 0 := (units_eq_zero_iff (by decide)).1 units_zero

theorem value_one : value 1 = 1 := by
  have hsign : isNegative 1 = false := by decide
  rw [value_of_bits (e := 1023) (m := 0) (by decide) (by decide) (by decide) (by decide), hsign]
  norm_num [leadingBit]

theorem value_half : value 0.5 = 1 / 2 := by
  have hsign : isNegative 0.5 = false := by decide
  rw [value_of_bits (e := 1022) (m := 0) (by decide) (by decide) (by decide) (by decide), hsign]
  norm_num [leadingBit]

/-- A number less than zero has the sign bit. -/
theorem isNegative_of_neg (hv : v.isFinite) (h : value v < 0) : isNegative v = true := by
  cases hsign : isNegative v with
  | true => rfl
  | false =>
      rw [value_eq hv, hsign, if_neg (by decide), one_mul] at h
      exact absurd h (not_lt.2 (by positivity))

/-- A number greater than zero does not have the sign bit. -/
theorem isNegative_of_pos (hv : v.isFinite) (h : 0 < value v) : isNegative v = false := by
  cases hsign : isNegative v with
  | false => rfl
  | true =>
      rw [value_eq hv, hsign, if_pos rfl, neg_one_mul] at h
      exact absurd h (not_lt.2 (neg_nonpos.2 (by positivity)))

/-- The units of a whole number. -/
theorem units_of_value_eq (hv : v.isFinite) {n : Int} (hn : value v = n) :
    units v = n.natAbs * one := by
  have hone : (one : ℚ) ≠ 0 := by exact_mod_cast one_pos.ne'
  have habs := abs_value hv
  rw [hn, eq_div_iff hone] at habs
  have hcast : ((n.natAbs * one : Nat) : ℚ) = units v := by
    rw [Nat.cast_mul, Nat.cast_natAbs, Int.cast_abs]
    exact habs
  exact_mod_cast hcast.symm

end Value

end Calculator.Double
