/-
**Decimals and the doubles nearest to them.**

The double nearest to a quotient of units depends on the quotient alone, whatever fraction it is
written as.  So two decimals of the same worth read as the same double, and it makes no difference
that the reader of literals settles exponents far out by the binary length of the digits.  A double
is the nearest one to its own units, and the shortest decimal that is found for it was found by
reading it back.

Main definitions

* `Calculator.Decimal.value` — the number that a scaled whole number stands for.

Main results

* `Calculator.Double.nearestBits_congr`, `Calculator.Decimal.nearestBits_congr` — equal numbers have
  the same nearest double;
* `Calculator.Double.nearestBits_unitsOfBits` — a double is the nearest one to its units;
* `Calculator.Decimal.toFloat_eq` — reading a decimal gives the nearest double;
* `Calculator.nearestBits_shortestDecimal` — the shortest decimal reads back.
-/

import Calculator.Number.Text
import Calculator.Proofs.DoubleValue

set_option autoImplicit false

namespace Calculator

/-! ### Quotients of units -/

namespace Double

/-- The nearest double does not depend on how the quotient is expanded. -/
theorem nearestBits_mul_right (num den : Nat) {c : Nat} (hc : 0 < c) :
    nearestBits (num * c) (den * c) = nearestBits num den := by
  have hscale (s : Nat) : den * c * twoPow s = den * twoPow s * c := by ring
  simp only [nearestBits, Nat.mul_div_mul_right _ _ hc, hscale, roundQuotient_mul_right _ _ hc]

/-- The nearest double depends on the quotient alone. -/
theorem nearestBits_congr {num den num' den' : Nat} (hden : 0 < den) (hden' : 0 < den')
    (h : (num : ℚ) / den = num' / den') : nearestBits num den = nearestBits num' den' := by
  have hcross : num * den' = num' * den := by
    have hden : (den : ℚ) ≠ 0 := by exact_mod_cast hden.ne'
    have hden' : (den' : ℚ) ≠ 0 := by exact_mod_cast hden'.ne'
    exact_mod_cast (div_eq_div_iff hden hden').1 h
  calc nearestBits num den
      = nearestBits (num * den') (den * den') := (nearestBits_mul_right num den hden').symm
    _ = nearestBits (num' * den) (den' * den) := by rw [hcross, Nat.mul_comm den]
    _ = nearestBits num' den' := nearestBits_mul_right num' den' hden

/-- A quotient of less than half a unit is nearest to zero. -/
theorem nearestBits_eq_zero {num den : Nat} (h : 2 * num < den) : nearestBits num den = 0 := by
  have hdiv : num / den = 0 := Nat.div_eq_of_lt (by omega)
  have hmod : num % den = num := Nat.mod_eq_of_lt (by omega)
  have hlog : Nat.log2 0 = 0 := by decide
  simp [nearestBits, shift, hdiv, hmod, hlog, twoPow_eq, roundQuotient, h]

/-- A quotient of at least `2 ^ 2099` units is nearest to infinity. -/
theorem nearestBits_eq_infinityBits {num den : Nat} (h : 2099 ≤ Nat.log2 (num / den)) :
    nearestBits num den = infinityBits := by
  rw [nearestBits]
  apply Nat.min_eq_left
  calc infinityBits = 2047 * leadingBit := by decide
    _ ≤ shift (num / den) * leadingBit := Nat.mul_le_mul_right _ (by rw [shift]; omega)
    _ ≤ _ := Nat.le_add_right _ _

/-- Nothing is cut off a number of units that has no more digits than a mantissa. -/
theorem shift_eq_zero {n : Nat} (h : n < leadingBit) : shift n = 0 := by
  rcases Nat.eq_zero_or_pos n with rfl | hn
  · rfl
  · have hlog : Nat.log2 n < 52 := (Nat.log2_lt hn.ne').2 h
    rw [shift]
    omega

/-- What is cut off a mantissa with all its digits is what it is scaled by. -/
theorem shift_mul_twoPow {m : Nat} (hlow : leadingBit ≤ m) (hhigh : m < 2 * leadingBit) (k : Nat) :
    shift (m * twoPow k) = k := by
  have hpos : 0 < m * twoPow k :=
    Nat.mul_pos (Nat.lt_of_lt_of_le (by decide) hlow) (twoPow_pos k)
  have hlog : Nat.log2 (m * twoPow k) = 52 + k := by
    refine (Nat.log2_eq_iff hpos.ne').2 ⟨?_, ?_⟩
    · rw [Nat.pow_add]
      exact Nat.mul_le_mul_right _ hlow
    · rw [Nat.add_right_comm, Nat.pow_add]
      exact Nat.mul_lt_mul_of_pos_right hhigh (twoPow_pos k)
  rw [shift, hlog]
  omega

/-- Nothing is lost in rounding a multiple of what is cut off. -/
theorem nearestBits_mul_twoPow {m s : Nat} (h : shift (m * twoPow s) = s) :
    nearestBits (m * twoPow s) 1 = min infinityBits (s * leadingBit + m) := by
  rw [nearestBits, Nat.div_one, h, Nat.one_mul, roundQuotient_mul (twoPow_pos s)]

/-- A double is the nearest one to its units. -/
theorem nearestBits_unitsOfBits {b : Nat} (hb : b < infinityBits) :
    nearestBits (unitsOfBits b) 1 = b := by
  have hfields : b / leadingBit * leadingBit + b % leadingBit = b := Nat.div_add_mod' b leadingBit
  have hmantissa : b % leadingBit < leadingBit := Nat.mod_lt _ (by decide)
  rw [unitsOfBits]
  split
  · rename_i hexponent
    rw [hexponent] at hfields
    have hround := nearestBits_mul_twoPow (m := b % leadingBit) (s := 0)
      (shift_eq_zero (by simpa [twoPow_eq] using hmantissa))
    rw [twoPow_eq, pow_zero, Nat.mul_one] at hround
    rw [hround, hfields, Nat.min_eq_right (Nat.le_of_lt hb)]
  · rename_i hexponent
    obtain ⟨e, he⟩ := Nat.exists_eq_succ_of_ne_zero hexponent
    rw [he] at hfields ⊢
    have hshift := shift_mul_twoPow (Nat.le_add_right leadingBit (b % leadingBit)) (by omega) e
    have hsum : e * leadingBit + (leadingBit + b % leadingBit) = b := by
      rw [← Nat.add_assoc, ← Nat.succ_mul, hfields]
    rw [Nat.succ_sub_one, nearestBits_mul_twoPow hshift, hsum, Nat.min_eq_right (Nat.le_of_lt hb)]

end Double

/-! ### Decimals -/

namespace Decimal

/-- The number that a scaled whole number stands for. -/
def value (d : Decimal) : ℚ := d.significand * 10 ^ d.exponent

/-- The nearest double of a decimal is that of a quotient of units with the same worth. -/
theorem exists_nearestBits_eq (d : Decimal) :
    ∃ num den : Nat, 0 < den ∧ d.nearestBits = Double.nearestBits num den ∧
      (num : ℚ) / den = d.value * Double.one := by
  obtain ⟨significand, exponent⟩ := d
  cases exponent with
  | ofNat k =>
      refine ⟨significand * tenPow k * Double.one, 1, Nat.one_pos, rfl, ?_⟩
      simp [value, tenPow_eq]
  | negSucc k =>
      refine ⟨significand * Double.one, tenPow (k + 1), tenPow_pos _, rfl, ?_⟩
      rw [value, zpow_negSucc, tenPow_eq]
      push_cast
      ring

/-- Decimals of the same worth have the same nearest double. -/
theorem nearestBits_congr {d d' : Decimal} (h : d.value = d'.value) :
    d.nearestBits = d'.nearestBits := by
  obtain ⟨num, den, hden, hbits, hworth⟩ := d.exists_nearestBits_eq
  obtain ⟨num', den', hden', hbits', hworth'⟩ := d'.exists_nearestBits_eq
  rw [hbits, hbits']
  exact Double.nearestBits_congr hden hden' (by rw [hworth, hworth', h])

/-- A power of ten has more than three times as many binary digits as its exponent says. -/
theorem two_pow_le_tenPow (k : Nat) : 2 ^ (3 * k) ≤ tenPow k := by
  rw [Nat.pow_mul]
  exact Nat.pow_le_pow_left (by decide) k

/-- The binary length of the digits is enough to see that a decimal is too large. -/
theorem nearestBits_of_large {significand k : Nat} (hne : significand ≠ 0)
    (h : 1100 < Nat.log2 significand + 3 * k) :
    Double.nearestBits (significand * tenPow k * Double.one) 1 = Double.infinityBits := by
  have hpos : 0 < significand * tenPow k * Double.one :=
    Nat.mul_pos (Nat.mul_pos (Nat.pos_of_ne_zero hne) (tenPow_pos k)) Double.one_pos
  apply Double.nearestBits_eq_infinityBits
  have hunit := Double.unitExponent_eq
  rw [Nat.div_one]
  calc 2099 ≤ Nat.log2 significand + 3 * k + Double.unitExponent := by omega
    _ ≤ _ := by
      rw [Nat.le_log2 hpos.ne', Nat.pow_add, Nat.pow_add, ← Double.one_eq]
      exact Nat.mul_le_mul_right _ (Nat.mul_le_mul (Nat.log2_self_le hne) (two_pow_le_tenPow k))

/-- The binary length of the digits is enough to see that a decimal is too small. -/
theorem nearestBits_of_small {significand k : Nat} (h : Nat.log2 significand + 1101 < 3 * k) :
    Double.nearestBits (significand * Double.one) (tenPow k) = 0 := by
  have hunit := Double.unitExponent_eq
  apply Double.nearestBits_eq_zero
  calc 2 * (significand * Double.one)
      < 2 * (2 ^ (Nat.log2 significand + 1) * Double.one) :=
        Nat.mul_lt_mul_of_pos_left
          (Nat.mul_lt_mul_of_pos_right Nat.lt_log2_self Double.one_pos) Nat.two_pos
    _ = 2 ^ (1 + (Nat.log2 significand + 1 + Double.unitExponent)) := by
        rw [Nat.pow_add 2 1, Nat.pow_add 2 (Nat.log2 significand + 1), ← Double.one_eq,
          Nat.pow_one]
    _ ≤ 2 ^ (3 * k) := Nat.pow_le_pow_right Nat.two_pos (by omega)
    _ ≤ tenPow k := two_pow_le_tenPow k

/-- Reading a decimal gives the nearest double, also where its exponent is far out. -/
theorem toFloat_eq (d : Decimal) : d.toFloat = Double.ofMagnitudeBits d.nearestBits := by
  obtain ⟨significand, exponent⟩ := d
  unfold toFloat
  dsimp only
  split
  · rename_i hzero
    have hbits : nearestBits ⟨0, exponent⟩ = 0 := by
      cases exponent with
      | ofNat k => exact Double.nearestBits_eq_zero (by simp)
      | negSucc k => exact Double.nearestBits_eq_zero (by simp [tenPow_pos])
    rw [hzero, hbits, Double.ofMagnitudeBits_zero]
  · rename_i hne
    cases exponent with
    | ofNat k =>
        dsimp only [nearestBits]
        split
        · rename_i hlarge
          rw [nearestBits_of_large hne hlarge]
        · rfl
    | negSucc k =>
        dsimp only [nearestBits]
        split
        · rename_i hsmall
          rw [nearestBits_of_small hsmall, Double.ofMagnitudeBits_zero]
        · rfl

end Decimal

/-! ### The shortest decimal -/

/-- The neighbour that is taken reads back. -/
theorem nearestBits_of_neighbour? {rule : TieRule} {n : Nat} {exponent : Int} {d : Decimal}
    (h : neighbour? rule n exponent = some d) : d.nearestBits = Double.nearestBits n 1 := by
  unfold neighbour? at h
  dsimp only at h
  split at h
  · rename_i hbelow
    cases h
    exact eq_of_beq (Bool.and_eq_true_iff.1 hbelow).1
  split at h
  · rename_i habove
    cases h
    exact eq_of_beq habove
  · cases h

/-- The exact decimal reads back. -/
theorem nearestBits_exactDecimal (n : Nat) :
    (exactDecimal n).nearestBits = Double.nearestBits n 1 := by
  obtain ⟨num, den, hden, hbits, hworth⟩ := (exactDecimal n).exists_nearestBits_eq
  rw [hbits]
  apply Double.nearestBits_congr hden Nat.one_pos
  have hten : (10 : ℚ) ^ Double.unitExponent =
      5 ^ Double.unitExponent * 2 ^ Double.unitExponent := by
    rw [← mul_pow]
    norm_num
  have hfive : (5 : ℚ) ^ Double.unitExponent ≠ 0 := by positivity
  have htwo : (2 : ℚ) ^ Double.unitExponent ≠ 0 := by positivity
  rw [hworth, exactDecimal, Decimal.value, Double.one_eq, zpow_neg, zpow_natCast, hten,
    Nat.pow_eq]
  push_cast
  field_simp

/-- The shortest decimal reads back, as it was found by reading back. -/
theorem nearestBits_shortestDecimal (rule : TieRule) (n : Nat) :
    (shortestDecimal rule n).nearestBits = Double.nearestBits n 1 := by
  unfold shortestDecimal
  dsimp only
  cases hfound : (List.range 17).findSome? fun k : Nat =>
      neighbour? rule n (decimalExponent n Double.one - (k : Int)) with
  | none => exact nearestBits_exactDecimal n
  | some d =>
      obtain ⟨k, -, hk⟩ := List.exists_of_findSome?_eq_some hfound
      exact nearestBits_of_neighbour? hk

end Calculator
