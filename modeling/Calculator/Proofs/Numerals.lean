/-
**What numerals are worth.**

A numeral is written digit by digit, so its length tells between which powers of ten its number
lies, and two numerals written one after the other are worth the first one, shifted, plus the
second.  From this follow the worth of the digits around a point and the meaning of the exponent
that the first significant digit of a quotient has.

Main results

* `Calculator.length_digits_le_iff`, `Calculator.lt_length_digits_iff` — how long a numeral is;
* `Calculator.ofDigits_append`, `Calculator.ofDigits_fractionDigits` — the worth of digits in front
  of others, and of those behind a point;
* `Calculator.exists_eq_dropTrailingZeros_append` — what is cut off at the end is zeros;
* `Calculator.zpow_decimalExponent_le`, `Calculator.lt_zpow_decimalExponent` — between which powers
  of ten a quotient lies;
* `Calculator.roundQuotient_mul_right`, `Calculator.abs_roundQuotient_sub_le` — the whole number
  nearest to a quotient depends on the quotient alone, and is at most a half away from it.
-/

import Calculator.Number.Decimal
import Mathlib.Algebra.Order.Field.Power
import Mathlib.Data.List.TakeWhile
import Mathlib.Data.Rat.Cast.Order
import Mathlib.Tactic.FieldSimp
import Mathlib.Tactic.Linarith
import Mathlib.Tactic.Positivity
import Mathlib.Tactic.Ring

set_option autoImplicit false

namespace Calculator

theorem twoPow_eq (k : Nat) : twoPow k = 2 ^ k := rfl

theorem tenPow_eq (k : Nat) : tenPow k = 10 ^ k := rfl

/-! ### Lengths -/

theorem length_digits_pos (n : Nat) : 0 < (digits n).length :=
  List.length_pos_iff.2 (digits_ne_nil n)

/-- A numeral has at most `k` digits if its number is less than `10 ^ k`. -/
theorem length_digits_le_iff {n k : Nat} (hk : 0 < k) : (digits n).length ≤ k ↔ n < 10 ^ k := by
  induction k generalizing n with
  | zero => omega
  | succ k ih =>
      by_cases hn : n < 10
      · have hten : 10 ^ 1 ≤ 10 ^ (k + 1) := Nat.pow_le_pow_right (by decide) (by omega)
        rw [digits_of_lt hn, List.length_singleton]
        omega
      · have hlength := length_digits_pos (n / 10)
        rw [digits_of_ge hn, List.length_append, List.length_singleton, Nat.add_le_add_iff_right,
          Nat.pow_succ]
        cases k with
        | zero => omega
        | succ k =>
            rw [ih (Nat.succ_pos k), Nat.div_lt_iff_lt_mul (by decide)]

/-- A numeral has more than `k` digits if its number is at least `10 ^ k`. -/
theorem lt_length_digits_iff {n k : Nat} (hk : 0 < k) : k < (digits n).length ↔ 10 ^ k ≤ n := by
  rw [← not_le, length_digits_le_iff hk, not_lt]

theorem length_digits_of_pos {n k : Nat} (hlow : 10 ^ k ≤ n) (hhigh : n < 10 ^ (k + 1)) :
    (digits n).length = k + 1 := by
  have hle := (length_digits_le_iff k.succ_pos).2 hhigh
  have hlength := length_digits_pos n
  rcases Nat.eq_zero_or_pos k with rfl | hk
  · omega
  · have hlt := (lt_length_digits_iff hk).2 hlow
    omega

/-! ### Worth -/

/-- Digits in front of others are worth as much more as there are others. -/
theorem ofDigits_append (cs ds : List Char) :
    ofDigits (cs ++ ds) = ofDigits cs * 10 ^ ds.length + ofDigits ds := by
  induction ds using List.reverseRecOn with
  | nil => simp
  | append_singleton ds d ih =>
      rw [← List.append_assoc, ofDigits_append_singleton, ofDigits_append_singleton, ih,
        List.length_append, List.length_singleton, Nat.pow_succ]
      ring

@[simp] theorem ofDigits_replicate_zero (k : Nat) : ofDigits (List.replicate k '0') = 0 := by
  induction k with
  | zero => rfl
  | succ k ih =>
      rw [List.replicate_succ', ofDigits_append_singleton, ih]
      rfl

/-- The digits are told apart by their values. -/
theorem eq_of_digitValue_eq {c d : Char} (hc : c.isDigit) (hd : d.isDigit)
    (h : digitValue c = digitValue d) : c = d := by
  have hrange {c : Char} (hc : c.isDigit) : '0'.toNat ≤ c.toNat := by
    simp only [Char.isDigit, Bool.and_eq_true, decide_eq_true_eq] at hc
    exact hc.1
  have hcrange := hrange hc
  have hdrange := hrange hd
  rw [digitValue, digitValue] at h
  exact Char.toNat_inj.1 (by omega)

theorem digitValue_lt {c : Char} (hc : c.isDigit) : digitValue c < 10 := by
  simp only [Char.isDigit, Bool.and_eq_true, decide_eq_true_eq] at hc
  have hle : c.toNat ≤ 57 := hc.2
  rw [digitValue]
  have hzero : '0'.toNat = 48 := rfl
  omega

/-- Numerals of one length are told apart by their worth. -/
theorem eq_of_ofDigits_eq {cs ds : List Char} (hcs : ∀ c ∈ cs, c.isDigit)
    (hds : ∀ d ∈ ds, d.isDigit) (hlength : cs.length = ds.length)
    (h : ofDigits cs = ofDigits ds) : cs = ds := by
  induction cs using List.reverseRecOn generalizing ds with
  | nil => exact (List.length_eq_zero_iff.1 hlength.symm).symm
  | append_singleton cs c ih =>
      rcases List.eq_nil_or_concat ds with rfl | ⟨ds', d, rfl⟩
      · simp at hlength
      · rw [List.concat_eq_append] at *
        rw [ofDigits_append_singleton, ofDigits_append_singleton] at h
        have hc := digitValue_lt (hcs c (by simp))
        have hd := digitValue_lt (hds d (by simp))
        have hlast : c = d :=
          eq_of_digitValue_eq (hcs c (by simp)) (hds d (by simp)) (by omega)
        have hfront : cs = ds' := ih (fun c hc => hcs c (by simp [hc]))
          (fun d hd => hds d (by simp [hd])) (by simpa using hlength) (by omega)
        rw [hlast, hfront]

/-! ### Digits behind a point -/

/-- There are as many digits behind the point as there are places. -/
theorem length_fractionDigits (q places : Nat) : (fractionDigits q places).length = places := by
  simp only [fractionDigits]
  split
  · simp_all
  · have hlt : q % tenPow places < 10 ^ places := Nat.mod_lt _ (tenPow_pos places)
    have hle := (length_digits_le_iff (by omega)).2 hlt
    rw [List.length_append, List.length_replicate]
    omega

/-- The digits behind the point are worth what the whole part leaves. -/
theorem ofDigits_fractionDigits (q places : Nat) :
    ofDigits (fractionDigits q places) = q % tenPow places := by
  simp only [fractionDigits]
  split
  · rename_i hplaces
    simp [hplaces, tenPow_eq, Nat.mod_one]
  · rw [ofDigits_append, ofDigits_replicate_zero, ofDigits_digits]
    omega

theorem dropWhile_replicate_zero (k : Nat) (cs : List Char) :
    (List.replicate k '0' ++ cs).dropWhile (· == '0') = cs.dropWhile (· == '0') := by
  rw [List.dropWhile_append_of_pos]
  intro c hc
  simpa using List.eq_of_mem_replicate hc

/-- Zeros at the end are cut off. -/
@[simp] theorem dropTrailingZeros_append_replicate_zero (cs : List Char) (k : Nat) :
    dropTrailingZeros (cs ++ List.replicate k '0') = dropTrailingZeros cs := by
  rw [dropTrailingZeros, List.reverse_append, List.reverse_replicate, dropWhile_replicate_zero,
    dropTrailingZeros]

/-- What is cut off at the end is zeros. -/
theorem exists_eq_dropTrailingZeros_append (cs : List Char) :
    ∃ k, cs = dropTrailingZeros cs ++ List.replicate k '0' := by
  refine ⟨(cs.reverse.takeWhile (· == '0')).length, ?_⟩
  have hzeros : cs.reverse.takeWhile (· == '0') =
      List.replicate (cs.reverse.takeWhile (· == '0')).length '0' := by
    refine List.eq_replicate_iff.2 ⟨rfl, fun c hc => ?_⟩
    simpa using List.mem_takeWhile_imp hc
  calc cs = (cs.reverse.takeWhile (· == '0') ++ cs.reverse.dropWhile (· == '0')).reverse := by
        rw [List.takeWhile_append_dropWhile, List.reverse_reverse]
    _ = dropTrailingZeros cs ++
          List.replicate (cs.reverse.takeWhile (· == '0')).length '0' := by
        rw [List.reverse_append, ← dropTrailingZeros, hzeros, List.reverse_replicate,
          List.length_replicate]

/-- What is left does not end in a zero. -/
theorem getLast?_dropTrailingZeros_ne (cs : List Char) :
    ∀ c ∈ (dropTrailingZeros cs).getLast?, c ≠ '0' := by
  intro c hc
  rw [dropTrailingZeros, List.getLast?_reverse] at hc
  have hnot := List.head?_dropWhile_not (· == '0') cs.reverse
  rw [hc] at hnot
  simpa using hnot

/-- The digits around the point, those that are cut off included, are worth the whole number. -/
theorem ofDigits_append_fractionDigits (q places : Nat) :
    ofDigits (digits (q / tenPow places) ++ fractionDigits q places) = q := by
  rw [ofDigits_append, ofDigits_digits, length_fractionDigits, ofDigits_fractionDigits, tenPow_eq,
    Nat.div_add_mod']

/-! ### The first significant digit of a quotient -/

section Exponent

variable {num den : Nat}

theorem decimalExponent_of_le (h : den ≤ num) :
    decimalExponent num den = ((digits (num / den)).length - 1 : Nat) := by
  have hlength := length_digits_pos (num / den)
  rw [decimalExponent, if_pos h]
  omega

theorem decimalExponent_of_lt (h : num < den) :
    decimalExponent num den = -((digits ((den - 1) / num)).length : Int) := by
  rw [decimalExponent, if_neg (by omega)]

/-- A quotient is at least the power of ten that its exponent names. -/
theorem zpow_decimalExponent_le (hnum : 0 < num) (hden : 0 < den) :
    (10 : ℚ) ^ decimalExponent num den ≤ num / den := by
  have hden' : (0 : ℚ) < den := by exact_mod_cast hden
  rcases Nat.lt_or_ge num den with h | h
  · rw [decimalExponent_of_lt h, zpow_neg, zpow_natCast, inv_le_comm₀ (by positivity)
      (by positivity), inv_div, div_le_iff₀ (by exact_mod_cast hnum)]
    have hlt := (length_digits_le_iff (length_digits_pos ((den - 1) / num))).1 (le_refl _)
    rw [Nat.div_lt_iff_lt_mul hnum] at hlt
    have hle : den ≤ 10 ^ (digits ((den - 1) / num)).length * num := by omega
    exact_mod_cast hle
  · rw [decimalExponent_of_le h, zpow_natCast, le_div_iff₀ hden']
    have hle : 10 ^ ((digits (num / den)).length - 1) ≤ num / den := by
      rcases Nat.eq_zero_or_pos ((digits (num / den)).length - 1) with hone | hmore
      · rw [hone]
        exact Nat.div_pos h hden
      · exact (lt_length_digits_iff hmore).1 (by omega)
    exact_mod_cast (Nat.le_div_iff_mul_le hden).1 hle

/-- A quotient is less than ten times the power of ten that its exponent names. -/
theorem lt_zpow_decimalExponent (hnum : 0 < num) (hden : 0 < den) :
    (num : ℚ) / den < 10 ^ (decimalExponent num den + 1) := by
  have hnum' : (0 : ℚ) < num := by exact_mod_cast hnum
  have hden' : (0 : ℚ) < den := by exact_mod_cast hden
  rcases Nat.lt_or_ge num den with h | h
  · have hlength := length_digits_pos ((den - 1) / num)
    have hexponent : decimalExponent num den + 1 =
        -(((digits ((den - 1) / num)).length - 1 : Nat) : Int) := by
      rw [decimalExponent_of_lt h]
      omega
    rw [hexponent, zpow_neg, zpow_natCast, lt_inv_comm₀ (by positivity) (by positivity), inv_div,
      lt_div_iff₀ hnum']
    have hle : 10 ^ ((digits ((den - 1) / num)).length - 1) ≤ (den - 1) / num := by
      rcases Nat.eq_zero_or_pos ((digits ((den - 1) / num)).length - 1) with hone | hmore
      · rw [hone]
        exact Nat.div_pos (by omega) hnum
      · exact (lt_length_digits_iff hmore).1 (by omega)
    rw [Nat.le_div_iff_mul_le hnum] at hle
    have hlt : 10 ^ ((digits ((den - 1) / num)).length - 1) * num < den := by omega
    exact_mod_cast hlt
  · have hlength := length_digits_pos (num / den)
    have hexponent : decimalExponent num den + 1 = ((digits (num / den)).length : Int) := by
      rw [decimalExponent_of_le h]
      omega
    rw [hexponent, zpow_natCast, div_lt_iff₀ hden']
    have hlt := (length_digits_le_iff hlength).1 (le_refl _)
    exact_mod_cast (Nat.div_lt_iff_lt_mul hden).1 hlt

end Exponent

/-! ### The whole number nearest to a quotient -/

section Round

variable {num den : Nat}

/-- The nearest whole number depends on the quotient alone. -/
theorem roundQuotient_mul_right (num den : Nat) {c : Nat} (hc : 0 < c) :
    roundQuotient (num * c) (den * c) = roundQuotient num den := by
  have hless : 2 * (num % den * c) < den * c ↔ 2 * (num % den) < den := by
    rw [← Nat.mul_assoc, Nat.mul_lt_mul_right hc]
  have hgreater : den * c < 2 * (num % den * c) ↔ den < 2 * (num % den) := by
    rw [← Nat.mul_assoc, Nat.mul_lt_mul_right hc]
  simp only [roundQuotient, Nat.mul_div_mul_right _ _ hc, Nat.mul_mod_mul_right, hless, hgreater]

theorem roundQuotient_zero_left (den : Nat) : roundQuotient 0 den = 0 := by
  simp [roundQuotient]

/-- The nearest whole number is one of the two around the quotient, and not the farther one. -/
theorem roundQuotient_cases (num den : Nat) :
    (roundQuotient num den = num / den ∧ 2 * (num % den) ≤ den) ∨
      (roundQuotient num den = num / den + 1 ∧ den ≤ 2 * (num % den)) := by
  simp only [roundQuotient]
  split
  · exact .inl ⟨rfl, by omega⟩
  split
  · exact .inr ⟨rfl, by omega⟩
  split
  · exact .inl ⟨rfl, by omega⟩
  · exact .inr ⟨rfl, by omega⟩

/-- A quotient that is not above a whole number is not rounded above it. -/
theorem roundQuotient_le (hden : 0 < den) {m : Nat} (h : num ≤ m * den) :
    roundQuotient num den ≤ m := by
  have hfloor : num / den ≤ m := Nat.div_le_of_le_mul (by rwa [Nat.mul_comm])
  rcases roundQuotient_cases num den with ⟨hround, -⟩ | ⟨hround, hhalf⟩
  · omega
  · -- rounding up needs a remainder, and `m` itself leaves none
    by_contra hlt
    have heq : num / den = m := by omega
    have hsplit := Nat.div_add_mod' num den
    rw [heq] at hsplit
    omega

/-- A quotient less than half below a whole number is rounded to it. -/
theorem roundQuotient_eq {m : Nat} (hlow : 2 * m * den < 2 * num + den) (hhigh : num < m * den) :
    roundQuotient num den = m := by
  have hden : 0 < den := Nat.pos_of_ne_zero (by rintro rfl; omega)
  have hsplit := Nat.div_add_mod' num den
  have hmod := Nat.mod_lt num hden
  obtain ⟨j, hj⟩ := Nat.exists_eq_add_of_lt ((Nat.div_lt_iff_lt_mul hden).2 hhigh)
  -- the whole part is `m - 1`, and more than half is left
  have hexpand : m * den = num / den * den + j * den + den := by
    rw [hj]
    ring
  have hleft : den + 2 * (j * den) < 2 * (num % den) := by
    rw [Nat.mul_assoc, hexpand] at hlow
    omega
  have hzero : j = 0 := by
    by_contra hne
    have hge : den ≤ j * den := Nat.le_mul_of_pos_left den (Nat.pos_of_ne_zero hne)
    omega
  rw [hzero, Nat.zero_mul] at hleft
  rcases roundQuotient_cases num den with ⟨-, hhalf⟩ | ⟨hround, -⟩
  · omega
  · omega

/-- A quotient is its whole part and a remainder. -/
theorem div_eq_add_mod_div (num : Nat) (hden : 0 < den) :
    (num : ℚ) / den = (num / den : Nat) + (num % den : Nat) / den := by
  have hden' : (den : ℚ) ≠ 0 := by exact_mod_cast hden.ne'
  have hsplit : (num : ℚ) = (num / den : Nat) * den + (num % den : Nat) := by
    exact_mod_cast (Nat.div_add_mod' num den).symm
  rwa [div_eq_iff hden', add_mul, div_mul_cancel₀ _ hden']

/-- The nearest whole number is at most a half away from the quotient. -/
theorem abs_roundQuotient_sub_le (num : Nat) (hden : 0 < den) :
    |(roundQuotient num den : ℚ) - num / den| ≤ 1 / 2 := by
  have hden' : (0 : ℚ) < den := by exact_mod_cast hden
  have hless : ((num % den : Nat) : ℚ) / den < 1 := by
    rw [div_lt_one hden']
    exact_mod_cast Nat.mod_lt num hden
  have hnonneg : (0 : ℚ) ≤ ((num % den : Nat) : ℚ) / den := by positivity
  rw [div_eq_add_mod_div num hden, abs_le]
  rcases roundQuotient_cases num den with ⟨hround, hhalf⟩ | ⟨hround, hhalf⟩
  · have hle : ((num % den : Nat) : ℚ) / den ≤ 1 / 2 := by
      rw [div_le_div_iff₀ hden' two_pos]
      exact_mod_cast (by omega : num % den * 2 ≤ 1 * den)
    rw [hround]
    constructor <;> linarith
  · have hle : (1 : ℚ) / 2 ≤ ((num % den : Nat) : ℚ) / den := by
      rw [div_le_div_iff₀ two_pos hden']
      exact_mod_cast (by omega : 1 * den ≤ num % den * 2)
    rw [hround, Nat.cast_add, Nat.cast_one]
    constructor <;> linarith

end Round

end Calculator
