/-
**What the screen shows of a number.**

The display text is the number rounded at one of its decimals.  Twelve significant digits decide
how many decimals are kept, and never more than fifteen are, so the rounding error is at most half
a unit of the twelfth digit or of the fifteenth decimal, whichever is coarser.  The text itself is
a plain one, so it can be read again.

How many decimals are kept is found from a logarithm.  A computed logarithm may reach the next
whole number although the number is still just below that power of ten.  Then one decimal less is
kept, but the number is rounded up to the power of ten anyway, and the text is the same.

Main definitions

* `Calculator.roundedTo` — a number rounded at a decimal;
* `Calculator.IsLead` — what the floor of a computed logarithm can be.

Main results

* `Calculator.displayText_eq` — the display text is the plain text of the rounded number;
* `Calculator.abs_roundedTo_sub_le`, `Calculator.half_unit_le` — the rounding error, and how large
  the last decimal that is shown can be;
* `Calculator.isLead_leadingExponent`, `Calculator.IsLead.text_roundedTo` — an exact logarithm is
  among those that are allowed for, and the text does not depend on which it is;
* `Calculator.displayText_faithful` — **the display text is plain, can be read again, and is nearly
  the number**.
-/

import Calculator.Proofs.PlainNumber

set_option autoImplicit false

namespace Calculator

/-! ### Rounding at a decimal -/

/-- A number rounded at the given decimal, half to even. -/
def roundedTo (v : Float) (places : Nat) : PlainNumber :=
  .ofQuotient (Double.isNegative v) (roundQuotient (Double.units v * tenPow places) Double.one)
    places

/-- How many decimals leave the significant digits, given the exponent of the first of them. -/
def DisplayFormat.placesFrom (f : DisplayFormat) (lead : Int) : Nat :=
  min f.maxPlaces ((f.significantDigits : Int) - 1 - lead).toNat

/-- How many decimals of a number are shown. -/
def shownPlaces (v : Float) : Nat := screenFormat.places (Double.units v) Double.one

/-- The exponent of the first significant digit of a number. -/
def leadingExponent (v : Float) : Int := decimalExponent (Double.units v) Double.one

theorem placesFrom_screenFormat (lead : Int) :
    screenFormat.placesFrom lead = min 15 (11 - lead).toNat := rfl

theorem shownPlaces_eq (v : Float) : shownPlaces v = min 15 (11 - leadingExponent v).toNat := rfl

/-- What the floor of a computed logarithm of a number can be: the exponent of its first significant
digit or, if the number is less than half a unit of its twelfth digit below a power of ten, the
exponent of this power. -/
structure IsLead (v : Float) (lead : Int) : Prop where
  lower : (10 : ℚ) ^ lead < |Double.value v| + 10 ^ lead / (2 * 10 ^ 12)
  upper : |Double.value v| < 10 ^ (lead + 1)

section Number

variable {v : Float}

/-- The display text of a finite number is plain. -/
theorem displayText_eq (hv : v.isFinite) :
    displayText v = String.ofList (roundedTo v (shownPlaces v)).text := by
  unfold displayText
  cases hzero : v == 0 with
  | true =>
      rw [roundedTo, Double.units_of_beq_zero hzero, Nat.zero_mul, roundQuotient_zero_left,
        PlainNumber.text_ofQuotient_zero]
      rfl
  | false =>
      simp only [hv, Bool.not_true, Bool.false_eq_true, if_false]
      rfl

/-- The units that are rounded are the number's magnitude, scaled. -/
theorem cast_units_mul_tenPow (hv : v.isFinite) (places : Nat) :
    ((Double.units v * tenPow places : Nat) : ℚ) =
      |Double.value v| * 10 ^ places * Double.one := by
  have hone : (Double.one : ℚ) ≠ 0 := by exact_mod_cast Double.one_pos.ne'
  rw [Double.abs_value hv, tenPow_eq, Nat.cast_mul, Nat.cast_pow, Nat.cast_ofNat]
  field_simp

/-- A number is rounded by at most half a unit of the last decimal that is kept. -/
theorem abs_roundedTo_sub_le (hv : v.isFinite) (places : Nat) :
    |(roundedTo v places).value - Double.value v| ≤ 1 / 2 / 10 ^ places := by
  have hone : (Double.one : ℚ) ≠ 0 := by exact_mod_cast Double.one_pos.ne'
  have hten : (0 : ℚ) < 10 ^ places := by positivity
  have hsign : |(if Double.isNegative v then -1 else 1 : ℚ)| = 1 := by
    split <;> simp
  have hround := abs_roundQuotient_sub_le (Double.units v * tenPow places) Double.one_pos
  rw [cast_units_mul_tenPow hv, mul_div_cancel_right₀ _ hone] at hround
  rw [roundedTo, PlainNumber.value_ofQuotient, Double.value_eq hv, ← Double.abs_value hv, ← mul_sub,
    abs_mul, hsign, one_mul]
  let q : ℚ := roundQuotient (Double.units v * tenPow places) Double.one
  calc |q / 10 ^ places - (|Double.value v|)|
      = |(q - |Double.value v| * 10 ^ places) / 10 ^ places| := by
        rw [sub_div, mul_div_cancel_right₀ _ hten.ne']
    _ = |q - |Double.value v| * 10 ^ places| / 10 ^ places := by rw [abs_div, abs_of_pos hten]
    _ ≤ 1 / 2 / 10 ^ places := div_le_div_of_nonneg_right hround hten.le

/-- A number that is less than half a unit of the last decimal below a multiple of it is rounded to
this multiple. -/
theorem roundQuotient_units_eq (hv : v.isFinite) {places m : Nat}
    (hlow : (m : ℚ) < |Double.value v| * 10 ^ places + 1 / 2)
    (hhigh : |Double.value v| * 10 ^ places < m) :
    roundQuotient (Double.units v * tenPow places) Double.one = m := by
  have hone : (0 : ℚ) < Double.one := by exact_mod_cast Double.one_pos
  have hlow' := mul_lt_mul_of_pos_right hlow hone
  have hhigh' := mul_lt_mul_of_pos_right hhigh hone
  rw [add_mul, ← cast_units_mul_tenPow hv] at hlow'
  rw [← cast_units_mul_tenPow hv] at hhigh'
  refine roundQuotient_eq ?_ (by exact_mod_cast hhigh')
  have hdouble : (2 : ℚ) * m * Double.one <
      2 * ((Double.units v * tenPow places : Nat) : ℚ) + Double.one := by
    linarith
  exact_mod_cast hdouble

/-- A number that is not above a multiple of the last decimal is not rounded above it. -/
theorem roundQuotient_units_le (hv : v.isFinite) {places m : Nat}
    (h : |Double.value v| * 10 ^ places ≤ m) :
    roundQuotient (Double.units v * tenPow places) Double.one ≤ m := by
  have hone : (0 : ℚ) ≤ Double.one := by positivity
  have hunits := mul_le_mul_of_nonneg_right h hone
  rw [← cast_units_mul_tenPow hv] at hunits
  exact roundQuotient_le Double.one_pos (by exact_mod_cast hunits)

/-! ### The exponent of the first digit -/

section Exponent

variable (hv : v.isFinite) (hpos : 0 < Double.units v)

include hv hpos

theorem zpow_leadingExponent_le : (10 : ℚ) ^ leadingExponent v ≤ |Double.value v| := by
  rw [Double.abs_value hv]
  exact zpow_decimalExponent_le hpos Double.one_pos

theorem lt_zpow_leadingExponent : |Double.value v| < 10 ^ (leadingExponent v + 1) := by
  rw [Double.abs_value hv]
  exact lt_zpow_decimalExponent hpos Double.one_pos

/-- The exponent of the first digit is what the floor of an exact logarithm would be. -/
theorem isLead_leadingExponent : IsLead v (leadingExponent v) where
  lower := lt_add_of_le_of_pos (zpow_leadingExponent_le hv hpos) (by positivity)
  upper := lt_zpow_leadingExponent hv hpos

/-- Half a unit of the last decimal that is shown is half a unit of the fifteenth decimal or of the
twelfth digit. -/
theorem half_unit_le :
    (1 : ℚ) / 2 / 10 ^ shownPlaces v ≤ 1 / 10 ^ 15 + |Double.value v| / 10 ^ 11 := by
  have hnonneg : 0 ≤ |Double.value v| / 10 ^ 11 := by positivity
  have hplaces := shownPlaces_eq v
  rcases Nat.le_total 15 (11 - leadingExponent v).toNat with hmany | hfew
  · rw [hplaces, Nat.min_eq_left hmany]
    linarith
  · have hunit : (1 : ℚ) / 10 ^ shownPlaces v ≤ |Double.value v| / 10 ^ 11 := by
      calc (1 : ℚ) / 10 ^ shownPlaces v
          = 10 ^ (-(shownPlaces v : Int)) := by rw [zpow_neg, zpow_natCast, one_div]
        _ ≤ 10 ^ (leadingExponent v - (11 : Nat)) :=
            zpow_le_zpow_right₀ (by norm_num) (by omega)
        _ = 10 ^ leadingExponent v / 10 ^ 11 := by
            rw [zpow_sub₀ (by norm_num), zpow_natCast]
        _ ≤ |Double.value v| / 10 ^ 11 := by
            gcongr
            exact zpow_leadingExponent_le hv hpos
    have hhalf : (1 : ℚ) / 2 / 10 ^ shownPlaces v = 1 / 10 ^ shownPlaces v / 2 :=
      div_right_comm 1 2 _
    rw [hhalf]
    linarith

end Exponent

namespace IsLead

variable {lead : Int} (hlead : IsLead v lead) (hv : v.isFinite)

include hlead hv

/-- Only a number other than zero has a logarithm. -/
theorem units_pos : 0 < Double.units v := by
  refine Nat.pos_of_ne_zero fun hzero => ?_
  have hlower := hlead.lower
  have hpower : (0 : ℚ) < 10 ^ lead := by positivity
  rw [(Double.units_eq_zero_iff hv).1 hzero, abs_zero] at hlower
  linarith

/-- What the floor of a computed logarithm can be is the exponent of the first digit or one more. -/
theorem eq_or_eq : lead = leadingExponent v ∨ lead = leadingExponent v + 1 := by
  have hten : (1 : ℚ) < 10 := by norm_num
  have hpos := hlead.units_pos hv
  have hge : leadingExponent v < lead + 1 :=
    (zpow_lt_zpow_iff_right₀ hten).1 ((zpow_leadingExponent_le hv hpos).trans_lt hlead.upper)
  have hle : lead < leadingExponent v + 2 := by
    have hpower : (0 : ℚ) < 10 ^ lead := by positivity
    have hlower := hlead.lower
    have hupper := lt_zpow_leadingExponent hv hpos
    have hstep : (10 : ℚ) ^ (leadingExponent v + 2) = 10 ^ (leadingExponent v + 1) * 10 := by
      rw [← zpow_add_one₀ (by norm_num), add_assoc]
      rfl
    rw [← zpow_lt_zpow_iff_right₀ hten, hstep]
    linarith
  omega

/-- A number just below a power of ten is rounded up to it, at the twelfth digit and at the one
before. -/
theorem roundQuotient_eq_tenPow (hbelow : lead = leadingExponent v + 1) {places k : Nat}
    (hplaces : lead + places = k) (hk : k ≤ 12) :
    roundQuotient (Double.units v * tenPow places) Double.one = 10 ^ k := by
  have hscale : (10 : ℚ) ^ lead * 10 ^ places = 10 ^ k := by
    rw [← zpow_natCast, ← zpow_natCast, ← hplaces, zpow_add₀ (by norm_num)]
  have hplaces' : (0 : ℚ) < 10 ^ places := by positivity
  have hle : (10 : ℚ) ^ k ≤ 10 ^ 12 := pow_le_pow_right₀ (by norm_num) hk
  have hlow := mul_lt_mul_of_pos_right hlead.lower hplaces'
  have hhigh := mul_lt_mul_of_pos_right (lt_zpow_leadingExponent hv (hlead.units_pos hv)) hplaces'
  have hhalf : (10 : ℚ) ^ lead / (2 * 10 ^ 12) * 10 ^ places ≤ 1 / 2 := by
    rw [div_mul_eq_mul_div, hscale, div_le_iff₀ (by norm_num)]
    linarith
  rw [add_mul, hscale] at hlow
  rw [← hbelow, hscale] at hhigh
  refine roundQuotient_units_eq hv ?_ ?_
  · rw [Nat.cast_pow, Nat.cast_ofNat]
    linarith
  · rwa [Nat.cast_pow, Nat.cast_ofNat]

/-- **The text does not depend on the computed logarithm.**  If its floor is one too much, the
number is rounded up to a power of ten, with one decimal less. -/
theorem text_roundedTo :
    (roundedTo v (screenFormat.placesFrom lead)).text = (roundedTo v (shownPlaces v)).text := by
  rcases hlead.eq_or_eq hv with hexact | hbelow
  · rw [hexact]
    rfl
  · have hshown := shownPlaces_eq v
    have htaken := placesFrom_screenFormat lead
    by_cases hsame : screenFormat.placesFrom lead = shownPlaces v
    · rw [hsame]
    · have hmore : shownPlaces v = screenFormat.placesFrom lead + 1 := by omega
      have hfewer := hlead.roundQuotient_eq_tenPow hv hbelow
        (show lead + (screenFormat.placesFrom lead : Nat) = (11 : Nat) by omega) (by decide)
      have hfull := hlead.roundQuotient_eq_tenPow hv hbelow
        (show lead + (shownPlaces v : Nat) = (12 : Nat) by omega) (by decide)
      rw [roundedTo, roundedTo, ← PlainNumber.signedText_plainText,
        ← PlainNumber.signedText_plainText, hfewer, hfull, hmore,
        show 10 ^ 12 = 10 ^ 11 * 10 from rfl, PlainNumber.plainText_mul_ten]

end IsLead

/-! ### Faithfulness -/

/-- What is shown is within the screen's precision of the number. -/
theorem abs_roundedTo_shownPlaces_sub_le (hv : v.isFinite) :
    |(roundedTo v (shownPlaces v)).value - Double.value v| ≤
      1 / 10 ^ 15 + |Double.value v| / 10 ^ 11 := by
  rcases Nat.eq_zero_or_pos (Double.units v) with hzero | hpos
  · -- zero is not rounded
    rw [roundedTo, PlainNumber.value_ofQuotient, hzero, Nat.zero_mul, roundQuotient_zero_left,
      (Double.units_eq_zero_iff hv).1 hzero]
    norm_num
  · exact (abs_roundedTo_sub_le hv _).trans (half_unit_le hv hpos)

/-- **The display text is faithful.**  For every finite number it is plain and never the zero with
a sign, it is read as a literal or as the opposite of one, and what it is worth differs from the
number by at most a unit of the fifteenth decimal and one of the twelfth digit.  The text is the
same whichever exponent a computed logarithm finds. -/
theorem displayText_faithful (hv : v.isFinite) :
    (∃ p : PlainNumber, (displayText v).toList = p.text ∧ displayText v ≠ "-0" ∧
      Expr.ofText (displayText v) = .ok p.expr ∧
      |p.value - Double.value v| ≤ 1 / 10 ^ 15 + |Double.value v| / 10 ^ 11) ∧
    ∀ lead, IsLead v lead →
      String.ofList (roundedTo v (screenFormat.placesFrom lead)).text = displayText v := by
  rw [displayText_eq hv]
  refine ⟨⟨roundedTo v (shownPlaces v), ?_, ?_, ?_, ?_⟩, ?_⟩
  · rw [String.toList_ofList]
  · intro hsign
    refine PlainNumber.text_ofQuotient_ne _ _ _ (?_ : (roundedTo v (shownPlaces v)).text = _)
    rw [← String.toList_ofList (l := (roundedTo v (shownPlaces v)).text), hsign]
    rfl
  · rw [PlainNumber.exprOfText_text]
  · exact abs_roundedTo_shownPlaces_sub_le hv
  · intro lead hlead
    rw [hlead.text_roundedTo hv]

end Number

/-- The greatest double below ten is shown as ten, also if its logarithm is computed as one. -/
theorem displayText_faithful_below_ten :
    let v := Float.ofBits 0x4023ffffffffffff
    v.isFinite ∧ IsLead v 1 ∧ displayText v = "10" ∧
      (∃ p : PlainNumber, (displayText v).toList = p.text ∧ displayText v ≠ "-0" ∧
        Expr.ofText (displayText v) = .ok p.expr ∧
        |p.value - Double.value v| ≤ 1 / 10 ^ 15 + |Double.value v| / 10 ^ 11) ∧
      String.ofList (roundedTo v (screenFormat.placesFrom 1)).text = displayText v := by
  intro v
  obtain ⟨hv, htext, hunits⟩ : v.isFinite = true ∧ displayText v = "10" ∧
      Double.units v = (10 * 2 ^ 49 - 1) * twoPow 1025 := by
    decide +kernel
  have hone : Double.one = 2 ^ 49 * twoPow 1025 := by
    rw [Double.one_eq, Double.unitExponent_eq, twoPow_eq, ← Nat.pow_add]
  have hvalue : |Double.value v| = (10 * 2 ^ 49 - 1) / 2 ^ 49 := by
    have hpow : (twoPow 1025 : ℚ) ≠ 0 := by exact_mod_cast (twoPow_pos 1025).ne'
    rw [Double.abs_value hv, hunits, hone, Nat.cast_mul, Nat.cast_mul, mul_div_mul_right _ _ hpow]
    norm_num
  have hlead : IsLead v 1 := by
    constructor <;> rw [hvalue] <;> norm_num
  obtain ⟨hplain, hsame⟩ := displayText_faithful hv
  exact ⟨hv, hlead, htext, hplain, hsame 1 hlead⟩

end Calculator
