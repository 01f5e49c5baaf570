/-
**Products and quotients of doubles.**

A product or a quotient of doubles is computed exactly, as a mantissa with two bits that tell how
what is cut off compares to a half, and then rounded once.  The bits that come out are those of the
double nearest to the exact product or quotient, in the same formula that numbers of units are
rounded by.

Main definitions

* `Calculator.Double.Cuts` — a mantissa with its two residual bits stands for a quotient.

Main results

* `Calculator.Double.Cuts.shiftRight`, `Calculator.Double.Cuts.roundedMantissa` — cutting off binary
  digits scales the denominator, and rounding at the end is rounding the quotient;
* `Calculator.Double.toNat_pack_roundWithAccuracy` — what is rounded has the bits of the nearest
  double;
* `Calculator.Double.mul_eq_ofMagnitudeBits`, `Calculator.Double.div_eq_ofMagnitudeBits` —
  **products and quotients are the doubles nearest to the exact ones**;
* `Calculator.Double.ofUnits_mul_ofUnits`, `Calculator.Double.ofUnits_div_ofUnits` — the same of
  numbers of units that are rounded first.
-/

import Calculator.Proofs.RoundedUnits

set_option autoImplicit false

namespace Calculator.Double

open Float.Model (Format UnpackedFloat totalExponent)
open Float.Model.UnpackedFloat (Sign Accuracy ExtendedMantissa accuracyOfFraction divCore isNaNBits
  pack_unpack packComponents pack_unpack_of_valid roundWithAccuracy shiftToExponent
  shiftToTargetExponent unpackExponent unpackMantissa unpackSign valid_pack)

/-! ### Mantissas that are cut off -/

section Cuts

variable {em : ExtendedMantissa} {num den : Nat}

/-- A mantissa with its two residual bits stands for a quotient: the bits tell how what is cut off
compares to a half. -/
structure Cuts (em : ExtendedMantissa) (num den : Nat) : Prop where
  mantissa : em.mantissa = num / den
  roundBit : em.roundBit = decide (den ≤ 2 * (num % den))
  stickyBit : em.stickyBit = decide (num % den ≠ 0 ∧ 2 * (num % den) ≠ den)

/-- The accuracy of a fraction tells how the fraction compares to a half. -/
theorem cuts_ofMantissaAndAccuracy (hden : 0 < den) :
    Cuts (.ofMantissaAndAccuracy (num / den) (accuracyOfFraction (num % den) den)) num den := by
  unfold accuracyOfFraction
  split
  · rename_i hzero
    refine ⟨rfl, ?_, ?_⟩
    · exact (decide_eq_false (by omega)).symm
    · exact (decide_eq_false (by omega)).symm
  · rename_i hne
    rcases hcompare : compare (2 * (num % den)) den with _ | _ | _
    · have hlt := Nat.compare_eq_lt.1 hcompare
      refine ⟨rfl, ?_, ?_⟩
      · exact (decide_eq_false (by omega)).symm
      · exact (decide_eq_true (by omega)).symm
    · have heq := Nat.compare_eq_eq.1 hcompare
      refine ⟨rfl, ?_, ?_⟩
      · exact (decide_eq_true (by omega)).symm
      · exact (decide_eq_false (by omega)).symm
    · have hgt := Nat.compare_eq_gt.1 hcompare
      refine ⟨rfl, ?_, ?_⟩
      · exact (decide_eq_true (by omega)).symm
      · exact (decide_eq_true (by omega)).symm

/-- To cut off one more binary digit is to double the denominator. -/
theorem Cuts.shiftRightOne (h : Cuts em num den) (hden : 0 < den) :
    Cuts em.shiftRightOne num (den * 2) := by
  have hrest : num % den < den := Nat.mod_lt _ hden
  have hmod : num % (den * 2) = num % den + den * (num / den % 2) := Nat.mod_mul
  refine ⟨?_, ?_, ?_⟩
  · rw [← Nat.div_div_eq_div_mul, ← h.mantissa]
    rfl
  · change (em.mantissa % 2 != 0) = _
    rw [h.mantissa, hmod]
    rcases Nat.mod_two_eq_zero_or_one (num / den) with hdigit | hdigit
    · rw [hdigit]
      exact (decide_eq_false (by omega)).symm
    · rw [hdigit]
      exact (decide_eq_true (by omega)).symm
  · change (em.roundBit || em.stickyBit) = _
    rw [h.roundBit, h.stickyBit, hmod, ← Bool.decide_or, decide_eq_decide]
    rcases Nat.mod_two_eq_zero_or_one (num / den) with hdigit | hdigit <;> rw [hdigit] <;> omega

/-- To cut off binary digits is to scale the denominator. -/
theorem Cuts.shiftRight (h : Cuts em num den) (hden : 0 < den) (k : Nat) :
    Cuts (em >>> k) num (den * 2 ^ k) := by
  change Cuts (k.repeat ExtendedMantissa.shiftRightOne em) num (den * 2 ^ k)
  induction k with
  | zero => simpa [Nat.repeat] using h
  | succ k ih =>
      rw [Nat.repeat, pow_succ, ← Nat.mul_assoc]
      exact ih.shiftRightOne (by positivity)

/-- Rounding a mantissa by its residual bits is rounding the quotient. -/
theorem Cuts.roundedMantissa (h : Cuts em num den) :
    em.roundedMantissa = roundQuotient num den := by
  obtain ⟨m, roundBit, stickyBit⟩ := em
  obtain ⟨hmantissa, hround, hsticky⟩ := h
  simp only at hmantissa hround hsticky
  rw [hmantissa]
  unfold roundQuotient
  cases roundBit with
  | false =>
      have hless : 2 * (num % den) < den := not_le.1 (of_decide_eq_false hround.symm)
      rw [if_pos hless]
      cases stickyBit <;> rfl
  | true =>
      have hmore : den ≤ 2 * (num % den) := of_decide_eq_true hround.symm
      cases stickyBit with
      | true =>
          have hne := (of_decide_eq_true hsticky.symm).2
          rw [if_neg (by omega), if_pos (by omega)]
          rfl
      | false =>
          -- a half goes to the even neighbour
          have hhalf := of_decide_eq_false hsticky.symm
          change num / den + num / den % 2 = _
          rw [if_neg (by omega), if_neg (by omega)]
          split <;> omega

end Cuts

/-! ### Exponents -/

/-- The exponent that a mantissa is cut off to, counted in units. -/
theorem targetExponent_eq (m : Nat) (e : Int) :
    format.targetExponent (totalExponent m e) = max ((m.log2 : Int) + e - 52) (-1074) := by
  have hbits : (format.mantissaBits : Int) = 53 := rfl
  have hmin : format.minExponent = -1074 := rfl
  rw [Format.targetExponent, totalExponent, hbits, hmin]
  congr 1
  omega

/-- A mantissa that has no digit too many is left alone. -/
theorem shiftToTargetExponent_of_lt {m : Nat} {e : Int} (hm : m < 2 * leadingBit)
    (he : -1074 ≤ e) : shiftToTargetExponent format m e .exact = (⟨m, false, false⟩, e) := by
  have hlog : m.log2 ≤ 52 := by
    rcases Nat.eq_zero_or_pos m with rfl | hpos
    · decide
    · exact Nat.lt_succ_iff.1 ((Nat.log2_lt hpos.ne').2 hm)
  have hshift : (max ((m.log2 : Int) + e - 52) (-1074) - e).toNat = 0 := by omega
  unfold shiftToTargetExponent shiftToExponent
  simp only [targetExponent_eq, hshift, Nat.cast_zero, add_zero]
  rfl

/-- A mantissa that is one too large is carried into the next binade. -/
theorem shiftToTargetExponent_carry {e : Int} (he : -1074 ≤ e) :
    shiftToTargetExponent format (2 * leadingBit) e .exact =
      (⟨leadingBit, false, false⟩, e + 1) := by
  have hlog : (2 * leadingBit).log2 = 53 := by decide +kernel
  have hshift : (max (((2 * leadingBit).log2 : Int) + e - 52) (-1074) - e).toNat = 1 := by omega
  unfold shiftToTargetExponent shiftToExponent
  simp only [targetExponent_eq, hshift]
  rfl

/-! ### Words -/

/-- The number that a positive word is. -/
theorem toNat_word_positive (e : BitVec 11) (m : BitVec 52) :
    (word .positive e m).toNat = e.toNat * leadingBit + m.toNat := by
  have hlt : (word .positive e m).toNat < signBit := by
    rw [← unpackSign_eq_zero_iff, unpackSign_word]
    rfl
  rw [← Nat.mod_eq_of_lt hlt, magnitude_eq_fields, unpackExponent_word, unpackMantissa_word]

/-- A number is packed into the double that is made of the bits of its word. -/
theorem packed_eq_ofMagnitudeBits (x : UnpackedFloat) :
    packed x = ofMagnitudeBits (UnpackedFloat.pack format x).toNat := by
  have hword : (UInt64.ofNat (UnpackedFloat.pack format x).toNat).toBitVec =
      UnpackedFloat.pack format x := by
    rw [← BitVec.toNat_inj]
    exact UInt64.toNat_ofNat_of_lt (UnpackedFloat.pack format x).isLt
  have hvalid := pack_unpack_of_valid (@valid_pack format x)
  calc packed x
      = packed (UnpackedFloat.unpack format (UnpackedFloat.pack format x)) :=
        packed_eq_packed hvalid.symm
    _ = packed (UnpackedFloat.unpack format
          (UInt64.ofNat (UnpackedFloat.pack format x).toNat).toBitVec) := by rw [hword]
    _ = ofMagnitudeBits (UnpackedFloat.pack format x).toNat := rfl

/-- A mantissa has all its digits if its binary length says so. -/
theorem log2_eq_iff_leadingBit_le {m : Nat} (hpos : 0 < m) (hlt : m < 2 * leadingBit) :
    m.log2 + 1 = 53 ↔ leadingBit ≤ m := by
  rw [leadingBit] at hlt ⊢
  constructor
  · intro hlog
    have hm : m.log2 = 52 := by omega
    exact ((Nat.log2_eq_iff hpos.ne').1 hm).1
  · intro hle
    have hm : m.log2 = 52 := (Nat.log2_eq_iff hpos.ne').2 ⟨hle, by omega⟩
    rw [hm]

/-- A mantissa with its scale is packed into its bits, or into those of infinity. -/
theorem toNat_pack_finite {m s : Nat} (hpos : 0 < m) (hlt : m < 2 * leadingBit)
    (hs : s = 0 ∨ leadingBit ≤ m) :
    (UnpackedFloat.pack format (.finite .positive m ((s : Int) - 1074) hpos)).toNat =
      min infinityBits (s * leadingBit + m) := by
  have hbias : ((s : Int) - 1074 + format.exponentBias + format.mantissaBitsWithoutImplicit).toNat =
      s + 1 := by
    have h : (format.exponentBias : Int) + format.mantissaBitsWithoutImplicit = 1075 := rfl
    omega
  have hrange : 2 ^ format.exponentBits = 2048 := rfl
  have hbits : format.mantissaBits = 53 := rfl
  have hinfinity : infinityBits = 2047 * leadingBit := rfl
  have hleading : leadingBit = 4503599627370496 := rfl
  unfold UnpackedFloat.pack
  simp only [hbias, hrange, hbits, log2_eq_iff_leadingBit_le hpos hlt]
  rw [hleading] at hlt hs ⊢
  split
  · rename_i hlarge
    rw [hinfinity, hleading, Nat.min_eq_left (by omega)]
    rfl
  · rename_i hsmall
    rw [hinfinity, hleading, Nat.min_eq_right (by omega)]
    split
    · rename_i hnormal
      change (word .positive (BitVec.ofNat 11 (s + 1)) (BitVec.ofNat 52 m)).toNat = _
      rw [toNat_word_positive, BitVec.toNat_ofNat, BitVec.toNat_ofNat, hleading]
      omega
    · rename_i hsubnormal
      obtain rfl : s = 0 := hs.resolve_right hsubnormal
      change (word .positive 0#11 (BitVec.ofNat 52 m)).toNat = _
      rw [toNat_word_positive, BitVec.toNat_ofNat, BitVec.toNat_ofNat, hleading]
      omega

/-! ### Rounding -/

section Rounding

variable {num den a b : Nat} {e : Int}

/-- A quotient lies between the powers of two that its binary length names. -/
theorem two_pow_log2_mul_le (hden : 0 < den) (hne : num / den ≠ 0) :
    2 ^ (num / den).log2 * den ≤ num :=
  (Nat.le_div_iff_mul_le hden).1 (Nat.log2_self_le hne)

theorem lt_two_pow_log2_mul (hden : 0 < den) : num < 2 ^ ((num / den).log2 + 1) * den :=
  (Nat.div_lt_iff_lt_mul hden).1 Nat.lt_log2_self

/-- Scaling by powers of two shifts the binary length. -/
theorem log2_scaled (hden : 0 < den) (hne : num / den ≠ 0) (hb : b ≤ (num / den).log2 + a) :
    (num * 2 ^ a / (den * 2 ^ b)).log2 = (num / den).log2 + a - b := by
  have hpos : 0 < den * 2 ^ b := by positivity
  have hscale : 2 ^ ((num / den).log2 + a - b) * (den * 2 ^ b) =
      2 ^ (num / den).log2 * den * 2 ^ a := by
    calc 2 ^ ((num / den).log2 + a - b) * (den * 2 ^ b)
        = 2 ^ ((num / den).log2 + a - b + b) * den := by ring
      _ = 2 ^ ((num / den).log2 + a) * den := by rw [Nat.sub_add_cancel hb]
      _ = 2 ^ (num / den).log2 * den * 2 ^ a := by ring
  have hlow : 2 ^ ((num / den).log2 + a - b) ≤ num * 2 ^ a / (den * 2 ^ b) := by
    rw [Nat.le_div_iff_mul_le hpos, hscale]
    exact Nat.mul_le_mul_right _ (two_pow_log2_mul_le hden hne)
  refine (Nat.log2_eq_iff ?_).2 ⟨hlow, ?_⟩
  · exact (Nat.lt_of_lt_of_le (by positivity) hlow).ne'
  · rw [Nat.div_lt_iff_lt_mul hpos, pow_succ, Nat.mul_right_comm, hscale]
    calc num * 2 ^ a < 2 ^ ((num / den).log2 + 1) * den * 2 ^ a :=
          Nat.mul_lt_mul_of_pos_right (lt_two_pow_log2_mul hden) (by positivity)
      _ = 2 ^ (num / den).log2 * den * 2 ^ a * 2 := by ring

/-- A quotient that is scaled far enough down is less than one. -/
theorem scaled_eq_zero (hden : 0 < den) (hb : (num / den).log2 + 1 + a ≤ b) :
    num * 2 ^ a / (den * 2 ^ b) = 0 := by
  refine Nat.div_eq_of_lt ?_
  calc num * 2 ^ a < 2 ^ ((num / den).log2 + 1) * den * 2 ^ a :=
        Nat.mul_lt_mul_of_pos_right (lt_two_pow_log2_mul hden) (by positivity)
    _ = den * 2 ^ ((num / den).log2 + 1 + a) := by ring
    _ ≤ den * 2 ^ b := Nat.mul_le_mul_left _ (Nat.pow_le_pow_right (by decide) hb)

/-- How many binary digits of a scaled quotient lie below those that a double keeps. -/
theorem shift_scaled (hden : 0 < den) (hab : (a : Int) - b = e + 1074)
    (hcut : 52 ≤ (num / den).log2 ∨ e ≤ -1074) :
    (shift (num * 2 ^ a / (den * 2 ^ b)) : Int) =
      max (((num / den).log2 : Int) + e - 52) (-1074) + 1074 := by
  have hshiftZero : shift 0 = 0 := by decide
  by_cases hne : num / den = 0
  · have hlog : (num / den).log2 = 0 := by rw [hne]; decide
    have hle : a ≤ b := by omega
    have hzero : num * 2 ^ a / (den * 2 ^ b) = 0 := by
      have hlt : num < den := (Nat.div_eq_zero_iff_lt hden).1 hne
      refine Nat.div_eq_of_lt ?_
      calc num * 2 ^ a < den * 2 ^ a := Nat.mul_lt_mul_of_pos_right hlt (by positivity)
        _ ≤ den * 2 ^ b := Nat.mul_le_mul_left _ (Nat.pow_le_pow_right (by decide) hle)
    rw [hzero, hshiftZero]
    omega
  · rcases Nat.lt_or_ge ((num / den).log2 + a) b with hsmall | hlarge
    · rw [scaled_eq_zero hden (by omega), hshiftZero]
      omega
    · rw [shift, log2_scaled hden hne hlarge]
      omega

/-- Rounding a quotient on a scaled grid. -/
theorem roundQuotient_scaled {k s : Nat} (h : b + s = k + a) :
    roundQuotient (num * 2 ^ a) (den * 2 ^ b * 2 ^ s) = roundQuotient num (den * 2 ^ k) := by
  have hden : den * 2 ^ b * 2 ^ s = den * 2 ^ k * 2 ^ a := by
    rw [Nat.mul_assoc, ← pow_add, h, pow_add, Nat.mul_assoc]
  rw [hden, roundQuotient_mul_right _ _ (by positivity)]

/-- The number with a mantissa that may be one too large. -/
def carried (m : Nat) (e : Int) : UnpackedFloat :=
  let (em, e) := shiftToTargetExponent format m e .exact
  if h : em.mantissa = 0 then .zero .positive
  else .finite .positive em.mantissa e (Nat.pos_of_ne_zero h)

/-- After it has been rounded a mantissa is carried into the next binade if necessary. -/
theorem toNat_pack_carried {m s : Nat} (hle : m ≤ 2 * leadingBit)
    (hgrid : s = 0 ∨ leadingBit ≤ m) :
    (UnpackedFloat.pack format (carried m ((s : Int) - 1074))).toNat =
      min infinityBits (s * leadingBit + m) := by
  unfold carried
  rcases Nat.lt_or_eq_of_le hle with hlt | rfl
  · rw [shiftToTargetExponent_of_lt hlt (by omega)]
    simp only
    split
    · rename_i hzero
      obtain rfl : s = 0 := hgrid.resolve_right (by rw [hzero]; decide)
      rw [hzero]
      rfl
    · exact toNat_pack_finite _ hlt hgrid
  · have hcarry : (s : Int) - 1074 + 1 = ((s + 1 : Nat) : Int) - 1074 := by omega
    have hbits : (s + 1) * leadingBit + leadingBit = s * leadingBit + 2 * leadingBit := by ring
    rw [shiftToTargetExponent_carry (by omega), hcarry, ← hbits]
    exact toNat_pack_finite (by decide) (by decide) (.inr (Nat.le_refl _))

/-- What is rounded has the bits of the double nearest to it. -/
theorem toNat_pack_roundWithAccuracy (hden : 0 < den) (hab : (a : Int) - b = e + 1074)
    (hcut : 52 ≤ (num / den).log2 ∨ e ≤ -1074) :
    (UnpackedFloat.pack format (roundWithAccuracy format .positive (num / den) e
      (accuracyOfFraction (num % den) den))).toNat = nearestBits (num * 2 ^ a) (den * 2 ^ b) := by
  have hden' : 0 < den * 2 ^ b := by positivity
  have hshift := shift_scaled hden hab hcut
  have hle := @roundQuotient_shift_le (num * 2 ^ a) _ hden'
  have hgrid : shift (num * 2 ^ a / (den * 2 ^ b)) = 0 ∨
      leadingBit ≤ roundQuotient (num * 2 ^ a)
        (den * 2 ^ b * 2 ^ shift (num * 2 ^ a / (den * 2 ^ b))) := by
    rcases Nat.eq_zero_or_pos (shift (num * 2 ^ a / (den * 2 ^ b))) with hzero | hpos
    · exact .inl hzero
    · exact .inr (le_roundQuotient (by positivity) (leadingBit_mul_le hden' hpos.ne'))
  rw [nearestBits, twoPow_eq]
  generalize shift (num * 2 ^ a / (den * 2 ^ b)) = s at hshift hle hgrid ⊢
  -- the first shift takes the mantissa to the grid on which the quotient is rounded
  obtain ⟨k, hk⟩ : ∃ k : Nat, (max (((num / den).log2 : Int) + e - 52) (-1074) - e).toNat = k :=
    ⟨_, rfl⟩
  have hexponent : e + (k : Int) = (s : Int) - 1074 := by omega
  have hround := ((@cuts_ofMantissaAndAccuracy num den hden).shiftRight hden k).roundedMantissa
  rw [← roundQuotient_scaled (a := a) (b := b) (s := s) (by omega)] at hround
  generalize roundQuotient (num * 2 ^ a) (den * 2 ^ b * 2 ^ s) = q at hle hgrid hround ⊢
  have hcarried : roundWithAccuracy format .positive (num / den) e
      (accuracyOfFraction (num % den) den) = carried q ((s : Int) - 1074) := by
    rw [← hround, ← hexponent, ← hk, ← targetExponent_eq]
    rfl
  rw [hcarried, toNat_pack_carried hle hgrid]

end Rounding

/-! ### Products and quotients -/

/-- What a finite double without the sign bit stands for. -/
theorem unpacked_cases {v : Float} (hv : v.isFinite) (hsign : isNegative v = false) :
    (unpacked v = .zero .positive ∧ units v = 0) ∨
      ∃ (m k : Nat) (hm : 0 < m), unpacked v = .finite .positive m ((k : Int) - 1074) hm ∧
        units v = m * 2 ^ k ∧ (k = 0 ∨ leadingBit ≤ m) := by
  let b : BitVec format.numBits := v.toBits.toBitVec
  have hpositive : Sign.ofBitVec (unpackSign b) = .positive := by
    rw [(unpackSign_eq_zero_iff b).2 (not_le.1 (of_decide_eq_false hsign))]
    rfl
  have hunits : units v =
      unitsOfBits ((unpackExponent b).toNat * leadingBit + (unpackMantissa b).toNat) := by
    rw [← magnitude_eq_fields]
    rfl
  have hbias : (format.exponentBias : Int) + format.mantissaBitsWithoutImplicit = 1075 := rfl
  have hfinite : (unpacked v).isFinite = true := hv
  generalize hx : unpacked v = x at hfinite ⊢
  change UnpackedFloat.unpack format b = x at hx
  simp only [UnpackedFloat.unpack, hbias, hpositive] at hx
  rw [hunits]
  split at hx
  · split at hx <;> subst hx <;> cases hfinite
  · split at hx
    · rename_i hexponent
      have hzero : (unpackExponent b).toNat = 0 := congrArg BitVec.toNat hexponent
      rw [hzero, Nat.zero_mul, Nat.zero_add, unitsOfBits_of_subnormal (unpackMantissa b).isLt]
      split at hx
      · rename_i hmantissa
        exact .inl ⟨hx.symm, congrArg BitVec.toNat hmantissa⟩
      · rename_i hmantissa
        have hscale : ((unpackExponent b).toNat : Int) - 1075 + 1 = ((0 : Nat) : Int) - 1074 := by
          omega
        rw [hscale] at hx
        exact .inr ⟨_, 0, _, hx.symm, by rw [pow_zero, Nat.mul_one], .inl rfl⟩
    · rename_i hexponent
      have he : (unpackExponent b).toNat ≠ 0 := fun h => hexponent (BitVec.toNat_inj.1 h)
      have hscale : ((unpackExponent b).toNat : Int) - 1075 =
          (((unpackExponent b).toNat - 1 : Nat) : Int) - 1074 := by
        omega
      rw [hscale] at hx
      refine .inr ⟨_, _, _, hx.symm, ?_, .inr ?_⟩
      · rw [unitsOfBits_of_normal he (unpackMantissa b).isLt, toNat_leadingDigit_append]
      · rw [toNat_leadingDigit_append]
        exact Nat.le_add_right _ _

theorem mul_eq (v w : Float) :
    v * w = packed (UnpackedFloat.mul format (unpacked v) (unpacked w)) := rfl

/-- Nothing is nearest to zero. -/
theorem nearestBits_zero {den : Nat} (hden : 0 < den) : nearestBits 0 den = 0 :=
  nearestBits_eq_zero (by omega)

theorem le_log2_mul {m n : Nat} (hm : leadingBit ≤ m) (hn : 0 < n) : 52 ≤ (m * n).log2 := by
  have hle : 2 ^ 52 ≤ m * n := Nat.le_trans hm (Nat.le_mul_of_pos_right m hn)
  exact (Nat.le_log2 (Nat.lt_of_lt_of_le (by positivity) hle).ne').2 hle

/-- A dividend that is long enough leaves a quotient with all digits of a mantissa. -/
theorem le_log2_div {m n j : Nat} (hm : 0 < m) (hn : 0 < n) (h : n.log2 + 53 ≤ m.log2 + j) :
    52 ≤ (m * 2 ^ j / n).log2 := by
  have hle : 2 ^ 52 ≤ m * 2 ^ j / n := by
    rw [Nat.le_div_iff_mul_le hn]
    calc 2 ^ 52 * n ≤ 2 ^ 52 * 2 ^ (n.log2 + 1) := Nat.mul_le_mul_left _ Nat.lt_log2_self.le
      _ = 2 ^ (n.log2 + 53) := by ring
      _ ≤ 2 ^ (m.log2 + j) := Nat.pow_le_pow_right (by decide) h
      _ = 2 ^ m.log2 * 2 ^ j := pow_add 2 m.log2 j
      _ ≤ m * 2 ^ j := Nat.mul_le_mul_right _ (Nat.log2_self_le hm.ne')
  exact (Nat.le_log2 (Nat.lt_of_lt_of_le (by positivity) hle).ne').2 hle

/-- A quotient of mantissas is computed with enough digits to be rounded. -/
theorem exists_divCore_eq {m n : Nat} (hm : 0 < m) (hn : 0 < n) (k l : Nat) :
    ∃ (j : Nat) (e : Int), (k : Int) - l = e + j ∧
      (52 ≤ (m * 2 ^ j / n).log2 ∨ e ≤ -1074) ∧
      divCore format m ((k : Int) - 1074) n ((l : Int) - 1074) =
        (m * 2 ^ j / n, e, accuracyOfFraction (m * 2 ^ j % n) n) := by
  have hdifference : totalExponent m ((k : Int) - 1074) - totalExponent n ((l : Int) - 1074) =
      (m.log2 : Int) - n.log2 + k - l := by
    rw [totalExponent, totalExponent]
    ring
  have htarget : format.targetExponent ((m.log2 : Int) - n.log2 + k - l) =
      max ((m.log2 : Int) - n.log2 + k - l - 53) (-1074) := rfl
  obtain ⟨e, he⟩ : ∃ e : Int, min ((k : Int) - 1074 - ((l : Int) - 1074))
      (max ((m.log2 : Int) - n.log2 + k - l - 53) (-1074)) = e := ⟨_, rfl⟩
  obtain ⟨j, hj⟩ : ∃ j : Nat, ((k : Int) - 1074 - ((l : Int) - 1074) - e).toNat = j := ⟨_, rfl⟩
  refine ⟨j, e, by omega, ?_, ?_⟩
  · by_cases hsmall : e ≤ -1074
    · exact .inr hsmall
    · exact .inl (le_log2_div hm hn (by omega))
  · unfold divCore
    simp only [hdifference, htarget, he, hj, Nat.shiftLeft_eq]

section Operations

variable {v w : Float} (hv : v.isFinite) (hw : w.isFinite) (hvsign : isNegative v = false)
  (hwsign : isNegative w = false)

include hv hw hvsign hwsign

/-- A product of doubles is the one nearest to the exact product. -/
theorem mul_eq_ofMagnitudeBits :
    v * w = ofMagnitudeBits (nearestBits (units v * units w) one) := by
  rw [mul_eq]
  rcases unpacked_cases hv hvsign with ⟨hvx, hvunits⟩ | ⟨m, k, hm, hvx, hvunits, hvgrid⟩
  · rw [hvx, hvunits, Nat.zero_mul, nearestBits_zero one_pos, ofMagnitudeBits_zero]
    rcases unpacked_cases hw hwsign with ⟨hwx, -⟩ | ⟨n, l, hn, hwx, -, -⟩ <;> rw [hwx] <;> rfl
  · rcases unpacked_cases hw hwsign with ⟨hwx, hwunits⟩ | ⟨n, l, hn, hwx, hwunits, hwgrid⟩
    · rw [hvx, hwx, hwunits, Nat.mul_zero, nearestBits_zero one_pos, ofMagnitudeBits_zero]
      rfl
    · have hcut : 52 ≤ (m * n / 1).log2 ∨ ((k : Int) - 1074) + ((l : Int) - 1074) ≤ -1074 := by
        rw [Nat.div_one]
        rcases hvgrid with rfl | hvgrid
        · rcases hwgrid with rfl | hwgrid
          · exact .inr (by omega)
          · exact .inl (Nat.mul_comm n m ▸ le_log2_mul hwgrid hm)
        · exact .inl (le_log2_mul hvgrid hn)
      have hexact : accuracyOfFraction (m * n % 1) 1 = .exact := by
        rw [accuracyOfFraction, if_pos (Nat.mod_one _)]
      have hbits := toNat_pack_roundWithAccuracy (a := k + l) (b := 1074) Nat.one_pos
        (by push_cast; ring) hcut
      have hunits : m * n * 2 ^ (k + l) = units v * units w := by
        rw [hvunits, hwunits]
        ring
      have hone : 1 * 2 ^ 1074 = one := by rw [Nat.one_mul, one_eq, unitExponent_eq]
      rw [hexact, Nat.div_one, hunits, hone] at hbits
      rw [hvx, hwx, packed_eq_ofMagnitudeBits, ← hbits]
      rfl

/-- A quotient of doubles is the one nearest to the exact quotient. -/
theorem div_eq_ofMagnitudeBits (hpos : 0 < units w) :
    v / w = ofMagnitudeBits (nearestBits (units v * one) (units w)) := by
  rw [div_eq]
  rcases unpacked_cases hw hwsign with ⟨-, hwunits⟩ | ⟨n, l, hn, hwx, hwunits, hwgrid⟩
  · omega
  · rcases unpacked_cases hv hvsign with ⟨hvx, hvunits⟩ | ⟨m, k, hm, hvx, hvunits, hvgrid⟩
    · rw [hvx, hwx, hvunits, Nat.zero_mul, nearestBits_zero hpos, ofMagnitudeBits_zero]
      rfl
    · obtain ⟨j, e, he, hcut, hcore⟩ := exists_divCore_eq hm hn k l
      have hbits := toNat_pack_roundWithAccuracy (a := k + 1074) (b := l + j) hn
        (by push_cast; omega) hcut
      have hone : 2 ^ (k + 1074) = 2 ^ k * one := by rw [pow_add, one_eq, unitExponent_eq]
      have hdividend : m * 2 ^ j * 2 ^ (k + 1074) = units v * one * 2 ^ j := by
        rw [hvunits, hone]
        ring
      have hdivisor : n * 2 ^ (l + j) = units w * 2 ^ j := by
        rw [hwunits]
        ring
      rw [hdividend, hdivisor, nearestBits_mul_right _ _ (by positivity)] at hbits
      rw [hvx, hwx, packed_eq_ofMagnitudeBits, ← hbits]
      simp only [UnpackedFloat.div, hcore]
      rfl

end Operations

/-! ### Products and quotients of rounded numbers -/

section OfBits

variable {b : Nat} (hb : b < infinityBits)

include hb

/-- The double made of the bits of a finite magnitude has these bits. -/
theorem toNat_toBits_ofMagnitudeBits : (ofMagnitudeBits b).toBits.toNat = b := by
  let m : BitVec format.numBits := (UInt64.ofNat b).toBitVec
  have hm : m.toNat = b := toNat_word_of_lt hb
  have hnumber : isNaNBits m = false := by
    refine decide_eq_false fun h => ?_
    have hexponent := congrArg BitVec.toNat h.1
    have hones : (-1#11).toNat = 2047 := rfl
    rw [toNat_unpackExponent, hm] at hexponent
    change b / 0x10000000000000 % 0x800 = (-1#11).toNat at hexponent
    rw [infinityBits] at hb
    omega
  calc (ofMagnitudeBits b).toBits.toNat
      = (UnpackedFloat.pack format (UnpackedFloat.unpack format m)).toNat := rfl
    _ = b := by rw [pack_unpack, hnumber, if_neg Bool.false_ne_true, hm]

theorem magnitudeBits_ofMagnitudeBits : magnitudeBits (ofMagnitudeBits b) = b := by
  rw [magnitudeBits, toNat_toBits_ofMagnitudeBits hb]
  exact Nat.mod_eq_of_lt (Nat.lt_trans hb (by decide))

theorem isFinite_ofMagnitudeBits : (ofMagnitudeBits b).isFinite := by
  rwa [isFinite_iff, magnitudeBits_ofMagnitudeBits hb]

theorem isNegative_ofMagnitudeBits : isNegative (ofMagnitudeBits b) = false := by
  rw [isNegative, toNat_toBits_ofMagnitudeBits hb]
  exact decide_eq_false (Nat.not_le.2 (Nat.lt_trans hb (by decide)))

theorem units_ofMagnitudeBits : units (ofMagnitudeBits b) = unitsOfBits b := by
  rw [units, magnitudeBits_ofMagnitudeBits hb]

end OfBits

/-- The opposite of a finite double is finite. -/
theorem isFinite_neg {v : Float} (hv : v.isFinite) : (-v).isFinite := by
  have hfinite : (unpacked v).isFinite = true := hv
  change (unpacked (-v)).isFinite = true
  rw [unpacked_neg]
  revert hfinite
  cases unpacked v <;> exact id

section Units

variable {m n : Nat} (hm : nearestBits m 1 < infinityBits) (hn : nearestBits n 1 < infinityBits)

include hm hn

/-- A product of numbers of units that are rounded first. -/
theorem ofUnits_mul_ofUnits :
    ofUnits m * ofUnits n = ofMagnitudeBits (nearestBits (roundUnits m * roundUnits n) one) := by
  rw [ofUnits, ofUnits, mul_eq_ofMagnitudeBits (isFinite_ofMagnitudeBits hm)
    (isFinite_ofMagnitudeBits hn) (isNegative_ofMagnitudeBits hm) (isNegative_ofMagnitudeBits hn),
    units_ofMagnitudeBits hm, units_ofMagnitudeBits hn]
  rfl

/-- A quotient of numbers of units that are rounded first. -/
theorem ofUnits_div_ofUnits (hpos : 0 < roundUnits n) :
    ofUnits m / ofUnits n = ofMagnitudeBits (nearestBits (roundUnits m * one) (roundUnits n)) := by
  have hunits : units (ofMagnitudeBits (nearestBits n 1)) = roundUnits n := units_ofMagnitudeBits hn
  rw [ofUnits, ofUnits, div_eq_ofMagnitudeBits (isFinite_ofMagnitudeBits hm)
    (isFinite_ofMagnitudeBits hn) (isNegative_ofMagnitudeBits hm) (isNegative_ofMagnitudeBits hn)
    (hunits ▸ hpos), units_ofMagnitudeBits hm, hunits]
  rfl

end Units


end Calculator.Double
