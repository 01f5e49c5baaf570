/-
**Rounding a number of units.**

A number of units is rounded to the nearest double on the grid of its own binade.  Nothing happens
to a number that lies on this grid, whole numbers of a moderate size among them.  In the other
direction, a double is what the numbers around it are rounded to: those nearer to it than to the two
doubles beside it, and, if its mantissa is even, the two numbers halfway as well.

Main results

* `Calculator.roundQuotient_eq_of_even` — a quotient at most a half away from an even number is
  rounded to it;
* `Calculator.Double.roundUnits_of_dvd`, `Calculator.Double.roundUnits_mul_two_pow`,
  `Calculator.Double.roundUnits_mul_one` — what rounding leaves alone;
* `Calculator.Double.roundUnits_eq_iff`, `Calculator.Double.roundUnits_eq_mul_one_iff` — **what is
  rounded to a given double**.
-/

import Calculator.Proofs.CorrectRounding

set_option autoImplicit false

namespace Calculator

/-! ### Quotients -/

section Round

variable {num den m : Nat}

/-- A whole quotient is not changed by rounding. -/
theorem roundQuotient_of_dvd (h : den ∣ num) : roundQuotient num den = num / den := by
  rcases Nat.eq_zero_or_pos den with rfl | hden
  · obtain rfl := Nat.eq_zero_of_zero_dvd h
    rfl
  · obtain ⟨q, rfl⟩ := h
    rw [Nat.mul_comm, roundQuotient_mul hden, Nat.mul_div_cancel _ hden]

/-- A quotient at most a half away from an even number is rounded to it. -/
theorem roundQuotient_eq_of_even (hden : 0 < den) (heven : m % 2 = 0)
    (hlow : 2 * (m * den) ≤ 2 * num + den) (hhigh : 2 * num ≤ 2 * (m * den) + den) :
    roundQuotient num den = m := by
  have hsplit := Nat.div_add_mod' num den
  have hmod := Nat.mod_lt num hden
  have htie := @roundQuotient_mod_two num den
  rcases lt_trichotomy m (num / den) with hless | heq | hgreater
  · obtain ⟨j, hj⟩ := Nat.exists_eq_add_of_lt hless
    have hexpand : num / den * den = m * den + j * den + den := by
      rw [hj]
      ring
    omega
  · rcases roundQuotient_cases num den with ⟨hround, -⟩ | ⟨hround, hhalf⟩
    · omega
    · rw [heq] at hhigh
      have hround' := htie (by omega)
      omega
  · obtain ⟨j, hj⟩ := Nat.exists_eq_add_of_lt hgreater
    have hexpand : m * den = num / den * den + j * den + den := by
      rw [hj]
      ring
    have hzero : j = 0 := by
      by_contra hne
      have hge : den ≤ j * den := Nat.le_mul_of_pos_left den (Nat.pos_of_ne_zero hne)
      omega
    rw [hzero, Nat.zero_mul] at hexpand
    rcases roundQuotient_cases num den with ⟨hround, hhalf⟩ | ⟨hround, -⟩
    · -- halfway between `m - 1` and `m`, and of the two `m` is even
      have hround' := htie (by omega)
      omega
    · omega

end Round

namespace Double

variable {n m s k j : Nat}

/-! ### What is left alone -/

/-- A quotient of units with few enough digits is nearest to a finite double. -/
theorem nearestBits_div_lt_infinityBits {num den : Nat} (hden : 0 < den)
    (h : shift (num / den) < 2045) : nearestBits num den < infinityBits := by
  have hround : roundQuotient num (den * 2 ^ shift (num / den)) ≤ 2 * leadingBit :=
    roundQuotient_shift_le hden
  have hsum : shift (num / den) * leadingBit +
      roundQuotient num (den * twoPow (shift (num / den))) < infinityBits := by
    rw [twoPow_eq, leadingBit, infinityBits] at *
    omega
  exact Nat.lt_of_le_of_lt (Nat.min_le_right _ _) hsum

/-- A number of units with few enough digits is nearest to a finite double. -/
theorem nearestBits_lt_infinityBits (h : shift n < 2045) : nearestBits n 1 < infinityBits :=
  nearestBits_div_lt_infinityBits Nat.one_pos (by rwa [Nat.div_one])

/-- A number of units is rounded on the grid of its binade. -/
theorem roundUnits_eq (h : shift n < 2045) :
    roundUnits n = roundQuotient n (2 ^ shift n) * 2 ^ shift n := by
  have hunits := (unitsOfBits_nearestBits Nat.one_pos (nearestBits_lt_infinityBits h)).2
  rwa [Nat.div_one, Nat.one_mul] at hunits

/-- Rounding leaves a number of units alone if nothing of it is cut off. -/
theorem roundUnits_of_dvd (hdvd : 2 ^ shift n ∣ n) (h : shift n < 2045) : roundUnits n = n := by
  rw [roundUnits_eq h, roundQuotient_of_dvd hdvd, Nat.div_mul_cancel hdvd]

/-- Of a number no more is cut off than its binary digits exceed those of a mantissa. -/
theorem shift_le (h : n < 2 ^ (53 + j)) : shift n ≤ j := by
  rcases Nat.eq_zero_or_pos n with rfl | hpos
  · exact Nat.zero_le j
  · have hlog := (Nat.log2_lt hpos.ne').2 h
    rw [shift]
    omega

/-- What is cut off a number with the digits of a mantissa is at most what it is scaled by. -/
theorem shift_mul_two_pow_le (hm : m < 2 ^ 53) (j : Nat) : shift (m * 2 ^ j) ≤ j := by
  apply shift_le
  rw [Nat.pow_add]
  exact Nat.mul_lt_mul_of_pos_right hm (by positivity)

/-- A number with the digits of a mantissa is a double, however it is scaled. -/
theorem roundUnits_mul_two_pow (hm : m < 2 ^ 53) (hj : j < 2045) :
    roundUnits (m * 2 ^ j) = m * 2 ^ j := by
  have hshift := shift_mul_two_pow_le hm j
  exact roundUnits_of_dvd ((Nat.pow_dvd_pow 2 hshift).mul_left m) (by omega)

/-- Whole numbers of at most 53 binary digits are doubles. -/
theorem roundUnits_mul_one (hk : k < 2 ^ 53) : roundUnits (k * one) = k * one := by
  have hunit := unitExponent_eq
  rw [one_eq]
  exact roundUnits_mul_two_pow hk (by omega)

/-! ### What is rounded to a given double -/

/-- What is cut off the numbers of one binade. -/
theorem shift_of_binade (hlow : leadingBit * 2 ^ s ≤ n) (hhigh : n < 2 * leadingBit * 2 ^ s) :
    shift n = s := by
  have hpos : 0 < n := Nat.lt_of_lt_of_le (Nat.mul_pos (by decide) (by positivity)) hlow
  have hlog : Nat.log2 n = 52 + s := by
    refine (Nat.log2_eq_iff hpos.ne').2 ⟨?_, ?_⟩
    · rwa [Nat.pow_add]
    · rwa [Nat.add_right_comm, Nat.pow_add]
  rw [shift, hlog]
  omega

/-- A double with an even mantissa, other than the smallest one of its binade, is what the numbers
up to half a step away from it are rounded to. -/
theorem roundUnits_eq_iff (hlow : leadingBit < m) (hhigh : m < 2 * leadingBit) (heven : m % 2 = 0)
    (hs : s < 2044) (hn : shift n < 2045) :
    roundUnits n = m * 2 ^ s ↔
      2 * (m * 2 ^ s) ≤ 2 * n + 2 ^ s ∧ 2 * n ≤ 2 * (m * 2 ^ s) + 2 ^ s := by
  have hpow : 0 < 2 ^ s := by positivity
  constructor
  · intro hround
    -- neither of the two doubles beside it is nearer
    have hnear (k : Nat) (hk : leadingBit ≤ k) (hk' : k ≤ 2 * leadingBit) :
        ((m * 2 ^ s : Nat) - n : ℚ) ^ 2 ≤ ((k * 2 ^ s : Nat) - n : ℚ) ^ 2 := by
      have hbits : s * leadingBit + k < infinityBits := by
        rw [leadingBit, infinityBits] at *
        omega
      have hle := (nearestBits_nearest Nat.one_pos (nearestBits_lt_infinityBits hn) hbits).1
      rw [unitsOfBits_add hk' (.inr hk), ← roundUnits, hround, Nat.cast_one, div_one] at hle
      exact sq_le_sq.2 hle
    have habove := hnear (m + 1) (by omega) (by omega)
    have hbelow := hnear (m - 1) (by omega) (by omega)
    have hpos : 1 ≤ m := by omega
    have hstep : (0 : ℚ) < 2 ^ s := by positivity
    push_cast [Nat.cast_sub hpos] at habove hbelow
    have hfirst : (2 * (m * 2 ^ s) : ℚ) ≤ 2 * n + 2 ^ s := by
      by_contra hlt
      nlinarith
    have hsecond : (2 * n : ℚ) ≤ 2 * (m * 2 ^ s) + 2 ^ s := by
      by_contra hlt
      nlinarith
    exact ⟨by exact_mod_cast hfirst, by exact_mod_cast hsecond⟩
  · rintro ⟨hfirst, hsecond⟩
    have hshift : shift n = s := by
      apply shift_of_binade
      · have hle : (leadingBit + 1) * 2 ^ s ≤ m * 2 ^ s := Nat.mul_le_mul_right _ hlow
        rw [Nat.succ_mul] at hle
        omega
      · have hle : (m + 1) * 2 ^ s ≤ 2 * leadingBit * 2 ^ s := Nat.mul_le_mul_right _ hhigh
        rw [Nat.succ_mul] at hle
        omega
    have hquotient : roundQuotient n (2 ^ s) = m :=
      roundQuotient_eq_of_even hpow heven hfirst hsecond
    rw [roundUnits_eq hn, hshift, hquotient]

/-- A whole number with `j` binary digits of its mantissa behind the point is what the numbers up to
half of the last one away from it are rounded to. -/
theorem roundUnits_eq_mul_one_iff (hlow : leadingBit < k * 2 ^ j)
    (hhigh : k * 2 ^ j < 2 * leadingBit) (hj : j ≠ 0) (hj' : j ≤ unitExponent)
    (hn : shift n < 2045) :
    roundUnits n = k * one ↔
      2 * 2 ^ j * (k * one) ≤ 2 * 2 ^ j * n + one ∧
        2 * 2 ^ j * n ≤ 2 * 2 ^ j * (k * one) + one := by
  have hunit := unitExponent_eq
  have hone : one = 2 ^ j * 2 ^ (unitExponent - j) := by
    rw [one_eq, ← Nat.pow_add, Nat.add_sub_cancel' hj']
  have heven : k * 2 ^ j % 2 = 0 := by
    obtain ⟨i, rfl⟩ := Nat.exists_eq_succ_of_ne_zero hj
    rw [Nat.pow_succ, ← Nat.mul_assoc, Nat.mul_mod_left]
  have hscale (a b : Nat) : 2 * a ≤ 2 * b + 2 ^ (unitExponent - j) ↔
      2 * 2 ^ j * a ≤ 2 * 2 ^ j * b + one := by
    have hpos : 0 < 2 ^ j := by positivity
    rw [hone, ← Nat.mul_le_mul_left_iff hpos]
    ring_nf
  rw [← hscale, ← hscale, hone, ← Nat.mul_assoc]
  exact roundUnits_eq_iff hlow hhigh heven (by omega) hn

end Double

end Calculator
