/-
**Where the tangent is undefined.**

The tangent is undefined at one and at three quarters of a turn, and the decision is taken on the
reduced angle.  For a positive angle the reduction is exact, so these are the odd multiples of 90
degrees and nothing else.  For a negative one a full turn is added to the remainder, and the sum is
rounded.  Close to three quarters of a turn doubles are four times as far apart as close to one
quarter, so −90 degrees and the two doubles on either side of it have their sums with a full turn
rounded to 270 degrees.  Nowhere else does it make a difference: a remainder close to 270 degrees is
a multiple of the step there, and its sum with a full turn is exact, and an angle of more than one
turn is a multiple of this step as well.

Main results

* `Calculator.Trig.tan_eq_outOfDomain_iff` — the tangent is undefined if the reduced angle is at one
  or three quarters of a turn;
* `Calculator.Angle.mod_turn_of_reduced_ninety`, `Calculator.Angle.reduced_twoSeventy_iff` — which
  negative angles are reduced to them;
* `Calculator.Trig.tan_undefined_iff` — **the tangent is undefined at the odd multiples of 90
  degrees and at the four doubles next to −90**;
* `Calculator.Trig.tan_undefined_beside_ninety` — one of these four.
-/

import Calculator.Proofs.WholeDegrees

set_option autoImplicit false

namespace Calculator

variable {d : Float}

/-! ### The decision -/

namespace Angle

open Double (one)

theorem wholeDegrees?_eq_some_iff {n k : Nat} : wholeDegrees? n = some k ↔ n = k * one := by
  constructor
  · intro h
    rw [wholeDegrees?] at h
    split at h
    · rename_i hmod
      cases h
      exact (Nat.div_mul_cancel (Nat.dvd_of_mod_eq_zero hmod)).symm
    · cases h
  · rintro rfl
    exact wholeDegrees?_mul_one k

end Angle

namespace Trig

/-- Of the functions only the tangent is undefined anywhere, and only at one and at three quarters
of a turn. -/
theorem special?_eq_undefined_iff {f : Trig} {k : Nat} :
    f.special? k = some .undefined ↔ f = tan ∧ (k = 90 ∨ k = 270) := by
  constructor
  · intro h
    unfold special? at h
    split at h <;> simp_all
  · rintro ⟨rfl, rfl | rfl⟩ <;> rfl

theorem ofDegrees_eq_outOfDomain_iff {f : Trig} (hd : d.isFinite) :
    f.ofDegrees d = .error .outOfDomain ↔
      (Angle.wholeDegrees? (Angle.units d)).bind f.special? = some .undefined := by
  rw [ofDegrees, hd]
  simp only [Bool.not_true, Bool.false_eq_true, if_false]
  split <;> rename_i h <;> simp [h]

/-- The tangent is undefined if the reduced angle is at one or at three quarters of a turn. -/
theorem tan_eq_outOfDomain_iff (hd : d.isFinite) :
    tan.ofDegrees d = .error .outOfDomain ↔
      Angle.units d = 90 * Double.one ∨ Angle.units d = 270 * Double.one := by
  simp only [ofDegrees_eq_outOfDomain_iff hd, Option.bind_eq_some_iff,
    Angle.wholeDegrees?_eq_some_iff, special?_eq_undefined_iff, true_and]
  constructor
  · rintro ⟨k, hk, rfl | rfl⟩
    · exact .inl hk
    · exact .inr hk
  · rintro (h | h)
    · exact ⟨90, h, .inl rfl⟩
    · exact ⟨270, h, .inr rfl⟩

end Trig

/-! ### Reduction of negative angles -/

namespace Angle

open Double (one roundUnits shift unitExponent leadingBit)

variable {n k a : Nat}

/-- Angles up to a full turn are far from the largest double. -/
theorem shift_lt_of_le_turn (h : n ≤ turn) : shift n < 2045 := by
  rcases Nat.eq_zero_or_pos n with rfl | hpos
  · decide
  · have hunit := Double.unitExponent_eq
    have hless : n < 2 ^ (9 + unitExponent) := by
      rw [Nat.pow_add, ← Double.one_eq]
      exact Nat.lt_of_le_of_lt h (Nat.mul_lt_mul_of_pos_right (by decide) Double.one_pos)
    have hlog := (Nat.log2_lt hpos.ne').2 hless
    rw [shift]
    omega

/-- A negative angle is reduced to a positive number of degrees if the complement of its remainder
is rounded to it. -/
theorem reducedUnits_true_eq_iff (hpos : 0 < k) (hk : k < 360) :
    reducedUnits true n = k * one ↔ roundUnits (turn - n % turn) = k * one := by
  have hne : 0 ≠ k * one := (Nat.mul_pos hpos Double.one_pos).ne
  have hless : k * one < turn := Nat.mul_lt_mul_of_pos_right hk Double.one_pos
  simp only [reducedUnits, Bool.true_and]
  by_cases hzero : n % turn = 0
  · have hturn : roundUnits turn = turn := Double.roundUnits_mul_one (by decide)
    simp [hzero, hturn, hne, hless.ne']
  · rw [if_pos (by simpa using hzero), wrap]
    split
    · omega
    · rfl

/-- Beyond 256 degrees a double is a multiple of `2⁻⁴⁴` degrees. -/
theorem one_dvd_of_le (h : 256 * one ≤ Double.units d) : one ∣ 2 ^ 44 * Double.units d := by
  have hunit := Double.unitExponent_eq
  have hone : one = 2 ^ 44 * 2 ^ (unitExponent - 44) := by
    rw [Double.one_eq, ← Nat.pow_add, Nat.add_sub_cancel' (by omega)]
  rcases Double.unitsOfBits_grid (Double.magnitudeBits d) (unitExponent - 44) with
    ⟨m, hm⟩ | ⟨-, hless⟩
  · exact ⟨m, by rw [Double.units, hm, hone]; ring⟩
  · rw [← Double.units, leadingBit] at hless
    omega

/-- A multiple of `2⁻⁴⁴` degrees at most half a step away from a whole number is this number. -/
theorem eq_mul_one_of_dvd (hdvd : one ∣ 2 ^ 44 * a)
    (hlow : 2 * 2 ^ 44 * (k * one) ≤ 2 * 2 ^ 44 * a + one)
    (hhigh : 2 * 2 ^ 44 * a ≤ 2 * 2 ^ 44 * (k * one) + one) : a = k * one := by
  obtain ⟨m, hm⟩ := hdvd
  have hle : 2 ^ 45 * k ≤ 2 * m + 1 := by
    refine Nat.le_of_mul_le_mul_right (c := one) ?_ Double.one_pos
    linarith
  have hge : 2 * m ≤ 2 ^ 45 * k + 1 := by
    refine Nat.le_of_mul_le_mul_right (c := one) ?_ Double.one_pos
    linarith
  have heq : m = 2 ^ 44 * k := by omega
  refine Nat.eq_of_mul_eq_mul_left (show 0 < 2 ^ 44 by decide) ?_
  rw [hm, heq]
  ring

/-- What an angle of at least 256 degrees leaves is a whole number of degrees if it is at most half
a step away from it. -/
theorem mod_turn_eq_of_le (h : 256 * one ≤ Double.units d)
    (hlow : 2 * 2 ^ 44 * (k * one) ≤ 2 * 2 ^ 44 * (Double.units d % turn) + one)
    (hhigh : 2 * 2 ^ 44 * (Double.units d % turn) ≤ 2 * 2 ^ 44 * (k * one) + one) :
    Double.units d % turn = k * one := by
  refine eq_mul_one_of_dvd ?_ hlow hhigh
  have hturn : one ∣ 2 ^ 44 * turn := (Nat.dvd_mul_left one 360).mul_left _
  rw [← Nat.mul_mod_mul_left]
  exact (Nat.dvd_mod_iff hturn).2 (one_dvd_of_le h)

/-- A negative angle is reduced to 90 degrees only if it leaves 270 degrees. -/
theorem mod_turn_of_reduced_ninety (h : reducedUnits true (Double.units d) = 90 * one) :
    Double.units d % turn = 270 * one := by
  have hmod := Nat.mod_lt (Double.units d) turn_pos
  have hle := Nat.mod_le (Double.units d) turn
  rw [reducedUnits_true_eq_iff (by decide) (by decide),
    Double.roundUnits_eq_mul_one_iff (j := 46) (by decide) (by decide) (by decide)
      (by rw [Double.unitExponent_eq]; decide) (shift_lt_of_le_turn (Nat.sub_le _ _))] at h
  rw [turn] at *
  exact mod_turn_eq_of_le (by omega) (by rw [turn]; omega) (by rw [turn]; omega)

/-- A negative angle is reduced to 270 degrees if what it leaves is at most `2⁻⁴⁵` degrees away from
90 degrees. -/
theorem reduced_twoSeventy_iff : reducedUnits true n = 270 * one ↔
    2 * 2 ^ 44 * (90 * one) ≤ 2 * 2 ^ 44 * (n % turn) + one ∧
      2 * 2 ^ 44 * (n % turn) ≤ 2 * 2 ^ 44 * (90 * one) + one := by
  have hmod := Nat.mod_lt n turn_pos
  rw [reducedUnits_true_eq_iff (by decide) (by decide),
    Double.roundUnits_eq_mul_one_iff (j := 44) (by decide) (by decide) (by decide)
      (by rw [Double.unitExponent_eq]; decide) (shift_lt_of_le_turn (Nat.sub_le _ _))]
  rw [turn] at *
  omega

end Angle

/-! ### Odd multiples and what is next to −90 degrees -/

namespace Double

/-- An angle that leaves a whole number of degrees is one, up to its sign. -/
theorem abs_value_of_mod_turn {r : Nat} (hd : d.isFinite) (h : units d % Angle.turn = r * one) :
    |value d| = (units d / Angle.turn * 360 + r : Nat) := by
  have hone : (one : ℚ) ≠ 0 := by exact_mod_cast one_pos.ne'
  have hunits : (units d / Angle.turn * 360 + r) * one = units d := by
    conv_rhs => rw [← Nat.div_add_mod' (units d) Angle.turn, h]
    rw [Nat.add_mul, Nat.mul_assoc, Angle.turn]
  rw [abs_value hd, div_eq_iff hone]
  exact_mod_cast hunits.symm

/-- An angle that leaves 90 or 270 degrees is an odd multiple of 90 degrees. -/
theorem exists_odd_multiple (hd : d.isFinite)
    (h : units d % Angle.turn = 90 * one ∨ units d % Angle.turn = 270 * one) :
    ∃ k : Int, value d = 90 + 180 * k := by
  obtain ⟨k, habs⟩ : ∃ k : Nat, |value d| = 90 + 180 * k := by
    rcases h with h | h
    · exact ⟨2 * (units d / Angle.turn), by rw [abs_value_of_mod_turn hd h]; push_cast; ring⟩
    · exact ⟨2 * (units d / Angle.turn) + 1, by rw [abs_value_of_mod_turn hd h]; push_cast; ring⟩
  rcases eq_or_eq_neg_of_abs_eq habs with heq | heq
  · exact ⟨k, by rw [heq]; push_cast; rfl⟩
  · exact ⟨-k - 1, by rw [heq]; push_cast; ring⟩

/-- A negative angle is at most `2⁻⁴⁵` degrees away from −90 degrees, in units. -/
theorem abs_value_add_ninety_le_iff (hd : d.isFinite) (hneg : isNegative d = true) :
    |value d + 90| ≤ 1 / 2 ^ 45 ↔ 2 * 2 ^ 44 * (90 * one) ≤ 2 * 2 ^ 44 * units d + one ∧
      2 * 2 ^ 44 * units d ≤ 2 * 2 ^ 44 * (90 * one) + one := by
  have hone : (0 : ℚ) < one := by exact_mod_cast one_pos
  have hvalue : value d + 90 = (90 * one - units d) / one := by
    rw [value_eq hd, hneg, if_pos rfl]
    field_simp
    ring
  rw [hvalue, abs_le, le_div_iff₀ hone, div_le_iff₀ hone]
  constructor
  · rintro ⟨hlow, hhigh⟩
    have hfirst : (2 * 2 ^ 44 * (90 * one) : ℚ) ≤ 2 * 2 ^ 44 * units d + one := by linarith
    have hsecond : (2 * 2 ^ 44 * units d : ℚ) ≤ 2 * 2 ^ 44 * (90 * one) + one := by linarith
    exact ⟨by exact_mod_cast hfirst, by exact_mod_cast hsecond⟩
  · rintro ⟨hfirst, hsecond⟩
    have hfirst' : (2 * 2 ^ 44 * (90 * one) : ℚ) ≤ 2 * 2 ^ 44 * units d + one := by
      exact_mod_cast hfirst
    have hsecond' : (2 * 2 ^ 44 * units d : ℚ) ≤ 2 * 2 ^ 44 * (90 * one) + one := by
      exact_mod_cast hsecond
    constructor <;> linarith

end Double

namespace Trig

/-- The tangent is undefined at odd multiples of 90 degrees. -/
theorem tan_undefined_of_odd (hd : d.isFinite) (h : ∃ k : Int, Double.value d = 90 + 180 * k) :
    tan.ofDegrees d = .error .outOfDomain := by
  obtain ⟨k, hk⟩ := h
  have hvalue : Double.value d = (90 + 180 * k : Int) := by
    rw [hk]
    push_cast
    rfl
  rw [tan_eq_outOfDomain_iff hd, Angle.units_of_whole hd hvalue]
  rcases (by omega : (90 + 180 * k) % 360 = 90 ∨ (90 + 180 * k) % 360 = 270) with h | h
  · exact .inl (by rw [h]; rfl)
  · exact .inr (by rw [h]; rfl)

/-- The tangent is undefined next to −90 degrees. -/
theorem tan_undefined_of_near (hd : d.isFinite) (h : |Double.value d + 90| ≤ 1 / 2 ^ 45) :
    tan.ofDegrees d = .error .outOfDomain := by
  have hneg : Double.isNegative d = true := by
    refine Double.isNegative_of_neg hd ?_
    have hle := (abs_le.1 h).2
    norm_num at hle
    linarith
  have hunits := (Double.abs_value_add_ninety_le_iff hd hneg).1 h
  have hless : Double.units d < Angle.turn := by
    have hone := Double.one_pos
    rw [Angle.turn]
    omega
  rw [tan_eq_outOfDomain_iff hd, Angle.units, hneg, Angle.reduced_twoSeventy_iff,
    Nat.mod_eq_of_lt hless]
  exact .inr hunits

/-- **The tangent is undefined exactly at the odd multiples of 90 degrees and next to −90 degrees.**
The doubles at most `2⁻⁴⁵` away from −90 are −90 itself and the two on either side of it; of these
four the sum with a full turn is rounded to 270. -/
theorem tan_undefined_iff (hd : d.isFinite) :
    tan.ofDegrees d = .error .outOfDomain ↔
      (∃ k : Int, Double.value d = 90 + 180 * k) ∨ |Double.value d + 90| ≤ 1 / 2 ^ 45 := by
  constructor
  · intro h
    rw [tan_eq_outOfDomain_iff hd, Angle.units] at h
    cases hneg : Double.isNegative d with
    | false =>
        rw [hneg] at h
        exact .inl (Double.exists_odd_multiple hd h)
    | true =>
        rw [hneg] at h
        rcases h with h | h
        · exact .inl (Double.exists_odd_multiple hd (.inr (Angle.mod_turn_of_reduced_ninety h)))
        · rw [Angle.reduced_twoSeventy_iff] at h
          rcases Nat.lt_or_ge (Double.units d) Angle.turn with hless | hge
          · rw [Nat.mod_eq_of_lt hless] at h
            exact .inr ((Double.abs_value_add_ninety_le_iff hd hneg).2 h)
          · -- beyond a full turn the remainder cannot be next to 90 degrees without being there
            have hlarge : 256 * Double.one ≤ Double.units d := by
              rw [Angle.turn] at hge
              omega
            exact .inl (Double.exists_odd_multiple hd
              (.inl (Angle.mod_turn_eq_of_le hlarge h.1 h.2)))
  · rintro (h | h)
    · exact tan_undefined_of_odd hd h
    · exact tan_undefined_of_near hd h

/-- The double below −90 degrees, where the decision falls as if it were −90 itself. -/
theorem tan_undefined_iff_below_ninety :
    let d := Float.ofBits 0xC056800000000001
    d.isFinite ∧ (tan.ofDegrees d = .error .outOfDomain ↔
      (∃ k : Int, Double.value d = 90 + 180 * k) ∨ |Double.value d + 90| ≤ 1 / 2 ^ 45) :=
  ⟨by decide, tan_undefined_iff (by decide)⟩

/-- The double below −90 degrees is no odd multiple of 90 degrees, and the tangent is undefined
there. -/
theorem tan_undefined_beside_ninety :
    let d := Float.ofBits 0xC056800000000001
    d.isFinite ∧ Double.value d = -90 - 1 / 2 ^ 46 ∧ tan.ofDegrees d = .error .outOfDomain ∧
      ¬ ∃ k : Int, Double.value d = 90 + 180 * k := by
  intro d
  have hd : d.isFinite := by decide
  have hsign : Double.isNegative d = true := by decide
  have hvalue : Double.value d = -90 - 1 / 2 ^ 46 := by
    rw [Double.value_of_bits (e := 1029) (m := 0x6800000000001) hd (by decide) (by decide)
      (by decide), hsign]
    norm_num [Double.leadingBit]
  refine ⟨hd, hvalue, tan_undefined_of_near hd ?_, ?_⟩
  · rw [hvalue]
    norm_num [abs_of_nonpos]
  · rintro ⟨k, hk⟩
    rw [hvalue] at hk
    have hscaled : (-(90 * 2 ^ 46 + 1) : ℚ) = (90 + 180 * k) * 2 ^ 46 := by
      rw [← hk]
      norm_num
    have hint : -(90 * 2 ^ 46 + 1) = (90 + 180 * k) * 2 ^ 46 := by exact_mod_cast hscaled
    omega

end Trig

end Calculator
