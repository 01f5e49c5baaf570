/-
**Short numbers are read correctly rounded.**

A number is read as a significand that is rounded once and then multiplied or divided by a power of
ten.  If the digits fit into a mantissa and the power of ten is small, both are doubles already, so
nothing is rounded but their product or quotient.  If there is neither a fraction nor an exponent,
nothing but the significand is rounded.  In both cases the double that comes out is the one nearest
to the number that is written.

Main definitions

* `Calculator.Json.Numeral.value` — the number that is written;
* `Calculator.Json.Numeral.IsShort` — its digits and its power of ten are small enough.

Main results

* `Calculator.Json.absorb_eq` — digits that fit are all kept;
* `Calculator.Json.scaleByPower_eq` — a short significand is scaled as a decimal is read;
* `Calculator.Json.Numeral.toFloat?_nearest` — **no double is nearer to a short number than the one
  it is read as**.
-/

import Calculator.Proofs.JsonNumbers
import Calculator.Proofs.RoundedProduct

set_option autoImplicit false

namespace Calculator.Json

open Double (infinityBits isFinite_ofMagnitudeBits nearestBits nearestBits_div_lt_infinityBits
  nearestBits_lt_infinityBits nearestBits_mul_right ofMagnitudeBits ofUnits ofUnits_div_ofUnits
  ofUnits_mul_ofUnits one one_eq roundUnits roundUnits_mul_one roundUnits_mul_two_pow shift
  shift_le shift_mul_two_pow_le unitExponent unitExponent_eq)

variable {s k : Nat} {e : Int} {n : Numeral}

/-! ### The number that is written -/

/-- The number that an exponent is. -/
def Exponent.value (x : Exponent) : Int :=
  if x.up then (ofDigits x.digits : Int) else -(ofDigits x.digits : Int)

/-- The number that an exponent is, zero if there is none. -/
def exponentValue (o : Option Exponent) : Int := (o.map Exponent.value).getD 0

/-- The number that is written, without its sign. -/
def Numeral.decimal (n : Numeral) : Decimal :=
  ⟨ofDigits (n.whole ++ n.fraction), exponentValue n.exponent - (n.fraction.length : Int)⟩

/-- The number that is written. -/
def Numeral.value (n : Numeral) : ℚ := (if n.negative then -1 else 1) * n.decimal.value

/-- A number is short if its digits fit into a mantissa and its power of ten is small.  Without
fraction and exponent they need only fit into a significand. -/
def Numeral.IsShort (n : Numeral) : Prop :=
  (n.fraction = [] ∧ n.exponent = none ∧ n.decimal.significand ≤ maxSignificand) ∨
    (n.decimal.significand < 2 ^ 53 ∧ n.decimal.exponent.natAbs ≤ 22 ∧
      (exponentValue n.exponent).natAbs ≤ maxExponent)

/-! ### Significands -/

/-- Digits that fit into a significand, those in front of them included, are all kept. -/
theorem absorb_eq (ps ds : List Char) (h : ofDigits (ps ++ ds) ≤ maxSignificand) :
    absorb (ofDigits ps) ds = (ofDigits (ps ++ ds), ds.length, 0) := by
  induction ds generalizing ps with
  | nil => simp
  | cons d ds ih =>
      have hsplit : ps ++ d :: ds = ps ++ [d] ++ ds := by simp
      rw [hsplit] at h ⊢
      have hle := ofDigits_le_append (ps ++ [d]) ds
      rw [absorb, ← ofDigits_append_singleton, if_neg (by omega), ih (ps ++ [d]) h,
        List.length_cons]

/-- A whole number is rounded to a double once. -/
theorem toFloat_wholeNumber (positive : Bool) (s : Nat) :
    (wholeNumber positive s).toFloat = withSign positive (⟨s, 0⟩ : Decimal).toFloat := by
  have hround : (⟨s, 0⟩ : Decimal).toFloat = Double.ofRatio s 1 := by
    rw [Decimal.toFloat_eq]
    change ofMagnitudeBits (nearestBits (s * tenPow 0 * one) 1) = _
    rw [tenPow_eq, pow_zero, Nat.mul_one]
    rfl
  rw [hround]
  unfold wholeNumber
  cases positive with
  | true => rfl
  | false =>
      rw [if_neg Bool.false_ne_true]
      split <;> rfl

/-! ### Powers of ten -/

theorem ofRatio_one (s : Nat) : Double.ofRatio s 1 = ofUnits (s * one) := rfl

theorem powerOfTen_eq (k : Nat) : powerOfTen k = ofUnits (tenPow k * one) := by
  rw [powerOfTen, Decimal.toFloat_eq]
  change ofMagnitudeBits (nearestBits (1 * tenPow k * one) 1) = _
  rw [Nat.one_mul]
  rfl

/-- A power of ten is a power of five that is scaled by a power of two. -/
theorem tenPow_mul_one (k : Nat) : tenPow k * one = 5 ^ k * 2 ^ (k + unitExponent) := by
  rw [tenPow_eq, one_eq, Nat.pow_add, ← Nat.mul_assoc, ← Nat.mul_pow]

theorem five_pow_lt (hk : k ≤ 22) : 5 ^ k < 2 ^ 53 :=
  Nat.lt_of_le_of_lt (Nat.pow_le_pow_right (by decide) hk) (by decide)

/-- Small powers of ten are doubles. -/
theorem roundUnits_tenPow (hk : k ≤ 22) : roundUnits (tenPow k * one) = tenPow k * one := by
  have hunit := unitExponent_eq
  rw [tenPow_mul_one]
  exact roundUnits_mul_two_pow (five_pow_lt hk) (by omega)

theorem nearestBits_tenPow (hk : k ≤ 22) : nearestBits (tenPow k * one) 1 < infinityBits := by
  have hunit := unitExponent_eq
  have hshift := shift_mul_two_pow_le (five_pow_lt hk) (k + unitExponent)
  rw [tenPow_mul_one]
  exact nearestBits_lt_infinityBits (by omega)

theorem nearestBits_mul_one (hs : s < 2 ^ 64) : nearestBits (s * one) 1 < infinityBits := by
  have hunit := unitExponent_eq
  have hshift : shift (s * one) ≤ 11 + unitExponent := by
    apply shift_le
    rw [← Nat.add_assoc, Nat.pow_add, one_eq]
    exact Nat.mul_lt_mul_of_pos_right hs (by positivity)
  exact nearestBits_lt_infinityBits (by omega)

/-- A short significand times a small power of ten is in the range of doubles. -/
theorem nearestBits_mul_tenPow (hs : s < 2 ^ 53) (hk : k ≤ 22) :
    nearestBits (s * tenPow k * one) 1 < infinityBits := by
  have hunit := unitExponent_eq
  have hpower : tenPow k ≤ 2 ^ (4 * 22) :=
    calc tenPow k ≤ tenPow 22 := Nat.pow_le_pow_right (by decide) hk
      _ ≤ 2 ^ (4 * 22) := by decide
  have hshift : shift (s * tenPow k * one) ≤ 4 * 22 + unitExponent := by
    apply shift_le
    rw [← Nat.add_assoc, Nat.pow_add, Nat.pow_add, one_eq]
    exact Nat.mul_lt_mul_of_pos_right
      (Nat.lt_of_le_of_lt (Nat.mul_le_mul_left s hpower)
        (Nat.mul_lt_mul_of_pos_right hs (by positivity)))
      (by positivity)
  exact nearestBits_lt_infinityBits (by omega)

/-- A short significand times a small power of ten is rounded once. -/
theorem mul_powerOfTen (hs : s < 2 ^ 53) (hk : k ≤ 22) :
    Double.ofRatio s 1 * powerOfTen k = ofMagnitudeBits (nearestBits (s * tenPow k * one) 1) := by
  have hproduct : s * one * (tenPow k * one) = s * tenPow k * one * one := by ring
  have hscale := nearestBits_mul_right (s * tenPow k * one) 1 Double.one_pos
  rw [Nat.one_mul] at hscale
  rw [ofRatio_one, powerOfTen_eq,
    ofUnits_mul_ofUnits (nearestBits_mul_one (by omega)) (nearestBits_tenPow hk),
    roundUnits_mul_one hs, roundUnits_tenPow hk, hproduct, hscale]

/-- A short significand divided by a small power of ten is rounded once. -/
theorem div_powerOfTen (hs : s < 2 ^ 53) (hk : k ≤ 22) :
    Double.ofRatio s 1 / powerOfTen k = ofMagnitudeBits (nearestBits (s * one) (tenPow k)) := by
  have hround := roundUnits_tenPow hk
  have hpos : 0 < roundUnits (tenPow k * one) := by
    rw [hround]
    exact Nat.mul_pos (tenPow_pos k) Double.one_pos
  rw [ofRatio_one, powerOfTen_eq,
    ofUnits_div_ofUnits (nearestBits_mul_one (by omega)) (nearestBits_tenPow hk) hpos,
    roundUnits_mul_one hs, hround, nearestBits_mul_right _ _ Double.one_pos]

/-- A short significand is scaled by a small power of ten as a decimal is read. -/
theorem scaleByPower_eq (hs : s < 2 ^ 53) (he : e.natAbs ≤ 22) :
    scaleByPower s e = some (⟨s, e⟩ : Decimal).toFloat := by
  rw [Decimal.toFloat_eq]
  cases e with
  | ofNat k =>
      have hk : k ≤ 22 := he
      have hfinite := isFinite_ofMagnitudeBits (nearestBits_mul_tenPow hs hk)
      unfold scaleByPower
      simp only [mul_powerOfTen hs hk]
      rw [if_neg (by omega), if_pos hfinite]
      rfl
  | negSucc k =>
      have hk : k + 1 ≤ 22 := by omega
      change some (divideByPower (Double.ofRatio s 1) (k + 1)) = _
      rw [divideByPower, if_pos (by omega), div_powerOfTen hs hk]
      rfl

/-! ### Short numbers -/

/-- The double that a short decimal is read as is finite. -/
theorem isFinite_toFloat (hs : s < 2 ^ 53) (he : e.natAbs ≤ 22) :
    (⟨s, e⟩ : Decimal).toFloat.isFinite := by
  have hunit := unitExponent_eq
  rw [Decimal.toFloat_eq]
  cases e with
  | ofNat k => exact isFinite_ofMagnitudeBits (nearestBits_mul_tenPow hs he)
  | negSucc k =>
      have hshift : shift (s * one / tenPow (k + 1)) ≤ unitExponent := by
        apply shift_le
        rw [Nat.pow_add, ← one_eq]
        exact Nat.lt_of_le_of_lt (Nat.div_le_self _ _)
          (Nat.mul_lt_mul_of_pos_right hs Double.one_pos)
      have hquotient : shift (s * one / tenPow (k + 1)) < 2045 := by omega
      exact isFinite_ofMagnitudeBits (nearestBits_div_lt_infinityBits (tenPow_pos _) hquotient)

/-- Nor is a whole number with the digits of a significand out of range. -/
theorem isFinite_toFloat_whole (hs : s ≤ maxSignificand) : (⟨s, 0⟩ : Decimal).toFloat.isFinite := by
  have hlt : s * tenPow 0 < 2 ^ 64 := by
    rw [tenPow_eq, pow_zero, Nat.mul_one]
    exact Nat.lt_of_le_of_lt hs (by decide)
  rw [Decimal.toFloat_eq]
  exact isFinite_ofMagnitudeBits (nearestBits_mul_one hlt)

theorem natAbs_exponent (p : Exponent) : p.value.natAbs = ofDigits p.digits := by
  unfold Exponent.value
  split <;> omega

/-- A short significand is read with its exponent as a decimal. -/
theorem scaled?_eq (positive : Bool) {o : Option Exponent} (hs : s < 2 ^ 53)
    (ho : (exponentValue o).natAbs ≤ maxExponent) (he : (exponentValue o + e).natAbs ≤ 22) :
    scaled? o positive s e =
      some (.float (withSign positive (⟨s, exponentValue o + e⟩ : Decimal).toFloat)) := by
  cases o with
  | none =>
      have hzero : exponentValue none + e = e := zero_add e
      rw [hzero] at he ⊢
      rw [scaled?, float?, scaleByPower_eq hs he]
      rfl
  | some p =>
      change p.value.natAbs ≤ maxExponent at ho
      change (p.value + e).natAbs ≤ 22 at he
      have hpower :
          (if p.up then e + (ofDigits p.digits : Int) else e - (ofDigits p.digits : Int)) =
            p.value + e := by
        unfold Exponent.value
        split <;> omega
      rw [natAbs_exponent] at ho
      rw [scaled?, Exponent.number?, if_neg (by omega), hpower, float?, scaleByPower_eq hs he]
      rfl

namespace Numeral

/-- A number without fraction and exponent that fits into a significand is read as a decimal. -/
theorem toFloat?_whole (hfraction : n.fraction = []) (hexponent : n.exponent = none)
    (hs : n.decimal.significand ≤ maxSignificand) :
    n.toFloat? = some (withSign (!n.negative) n.decimal.toFloat) := by
  have hdecimal : n.decimal = ⟨ofDigits n.whole, 0⟩ := by
    simp [decimal, hfraction, hexponent, exponentValue]
  rw [hdecimal] at hs ⊢
  have habsorb : absorb 0 n.whole = (ofDigits n.whole, n.whole.length, 0) := absorb_eq [] n.whole hs
  rw [toFloat?, number?, habsorb]
  simp [tailNumber?, hfraction, hexponent, toFloat_wholeNumber]

/-- A number with few digits and a small power of ten is read as a decimal. -/
theorem toFloat?_scaled (hs : n.decimal.significand < 2 ^ 53) (he : n.decimal.exponent.natAbs ≤ 22)
    (ho : (exponentValue n.exponent).natAbs ≤ maxExponent)
    (htail : ¬ (n.fraction = [] ∧ n.exponent = none)) :
    n.toFloat? = some (withSign (!n.negative) n.decimal.toFloat) := by
  change ofDigits (n.whole ++ n.fraction) < 2 ^ 53 at hs
  have hmax : 2 ^ 53 ≤ maxSignificand := by decide
  have hall : ofDigits (n.whole ++ n.fraction) ≤ maxSignificand := by omega
  have hwhole : absorb 0 n.whole = (ofDigits n.whole, n.whole.length, 0) :=
    absorb_eq [] n.whole (Nat.le_trans (ofDigits_le_append n.whole n.fraction) hall)
  have hexponent : exponentValue n.exponent + (((0 : Nat) : Int) - (n.fraction.length : Int)) =
      n.decimal.exponent := by
    change _ = exponentValue n.exponent - (n.fraction.length : Int)
    omega
  rw [toFloat?, number?, hwhole]
  simp only [tailNumber?, absorb_eq n.whole n.fraction hall]
  rw [if_neg (fun h => htail ⟨h.1, h.2.1⟩), scaled?_eq _ hs ho (hexponent ▸ he), hexponent]
  rfl

/-- A short number is read as a decimal. -/
theorem toFloat?_eq (h : n.IsShort) :
    n.toFloat? = some (withSign (!n.negative) n.decimal.toFloat) ∧ n.decimal.toFloat.isFinite := by
  have hmax : 2 ^ 53 ≤ maxSignificand := by decide
  rcases h with ⟨hfraction, hexponent, hs⟩ | ⟨hs, he, ho⟩
  · refine ⟨toFloat?_whole hfraction hexponent hs, ?_⟩
    have hdecimal : n.decimal.exponent = 0 := by
      simp [decimal, hfraction, hexponent, exponentValue]
    have hfinite := isFinite_toFloat_whole hs
    rwa [← hdecimal] at hfinite
  · refine ⟨?_, isFinite_toFloat hs he⟩
    by_cases htail : n.fraction = [] ∧ n.exponent = none
    · exact toFloat?_whole htail.1 htail.2 (Nat.le_of_lt (Nat.lt_of_lt_of_le hs hmax))
    · exact toFloat?_scaled hs he ho htail

/-- No double is nearer to a short number than the one it is read as. -/
theorem toFloat?_nearest (h : n.IsShort) :
    ∃ v : Float, n.toFloat? = some v ∧ v.isFinite ∧
      ∀ w : Float, w.isFinite → |Double.value v - n.value| ≤ |Double.value w - n.value| := by
  obtain ⟨hread, hfinite⟩ := toFloat?_eq h
  refine ⟨_, hread, ?_⟩
  cases hsign : n.negative with
  | false =>
      refine ⟨hfinite, fun w hw => ?_⟩
      have hvalue : n.value = n.decimal.value := by rw [value, hsign]; exact one_mul _
      rw [hvalue]
      exact n.decimal.toFloat_nearest hfinite hw
  | true =>
      refine ⟨Double.isFinite_neg hfinite, fun w hw => ?_⟩
      have hvalue : n.value = -n.decimal.value := by rw [value, hsign]; exact neg_one_mul _
      -- the opposite of a double is a double, so nothing is nearer on the other side of zero
      have hnearest := n.decimal.toFloat_nearest hfinite (Double.isFinite_neg hw)
      rw [Double.value_neg] at hnearest
      change |Double.value (-n.decimal.toFloat) - n.value| ≤ _
      rw [hvalue, Double.value_neg, neg_sub_neg, sub_neg_eq_add, abs_sub_comm]
      calc |Double.value n.decimal.toFloat - n.decimal.value|
          ≤ |-Double.value w - n.decimal.value| := hnearest
        _ = |Double.value w + n.decimal.value| := by rw [← neg_add', abs_neg]

end Numeral

end Calculator.Json
