/-
**Whole numbers of degrees.**

Reduction to one turn is exact for an angle that is a whole number of degrees, however large and of
either sign: the remainder of a double is exact, and a full turn is only ever added to a whole
number of less than 360, where there is nothing to round.  So the functions are periodic on the
whole angles, to the last bit.

The table of exact values is compared with the real functions.  By Niven's theorem the sine and the
cosine of a whole number of degrees are rational only if they are zero, a half or one in magnitude,
and the tangent only if it is zero or one.  An angle that has such a value differs from one of a few
known angles by full turns, or is symmetric to it, and all of these are in the table with the right
sign.  Hence a rational value is always given exactly.

Main definitions

* `Calculator.radians`, `Calculator.Trig.HasValueAt` — the real functions at a whole number of
  degrees;
* `Calculator.Trig.Gives` — an entry of the table.

Main results

* `Calculator.Angle.units_of_whole` — a whole number of degrees is reduced exactly;
* `Calculator.Trig.gives_of_hasValueAt` — the table has every rational value;
* `Calculator.Trig.ofDegrees_whole` — **the functions are periodic and exact on whole numbers of
  degrees**.
-/

import Calculator.Number.Angle
import Calculator.Proofs.RoundedUnits

set_option autoImplicit false

namespace Calculator

open Real (pi)

variable {d : Float} {m n : Int} {q : ℚ}

/-! ### Reduction -/

namespace Angle

open Double (one)

/-- A whole number of degrees leaves a whole remainder. -/
theorem mul_one_mod_turn (k : Nat) : k * one % turn = k % 360 * one := by
  rw [turn, Nat.mul_mod_mul_right]

/-- A whole number of degrees of either sign is reduced without rounding. -/
theorem reducedUnits_mul_one (negative : Bool) (k : Nat) :
    reducedUnits negative (k * one) =
      (if negative then (360 - k % 360) % 360 else k % 360) * one := by
  simp only [reducedUnits, mul_one_mod_turn]
  cases negative with
  | false => rfl
  | true =>
      by_cases hzero : k % 360 = 0
      · simp [hzero]
      · have hmod := Nat.mod_lt k (show 0 < 360 by decide)
        have hne : k % 360 * one ≠ 0 :=
          (Nat.mul_pos (Nat.pos_of_ne_zero hzero) Double.one_pos).ne'
        have hsub : turn - k % 360 * one = (360 - k % 360) * one := by
          rw [turn, Nat.sub_mul]
        have hless : (360 - k % 360) * one < turn :=
          Nat.mul_lt_mul_of_pos_right (by omega) Double.one_pos
        rw [if_pos (by simpa using hne), hsub, Double.roundUnits_mul_one (by omega),
          wrap_of_lt hless, if_pos rfl, Nat.mod_eq_of_lt (by omega : 360 - k % 360 < 360)]

/-- A whole number of degrees is reduced exactly. -/
theorem units_of_whole (hd : d.isFinite) (hn : Double.value d = n) :
    units d = (n % 360).toNat * one := by
  rw [units, Double.units_of_value_eq hd hn, reducedUnits_mul_one]
  congr 1
  rcases lt_trichotomy n 0 with hneg | hzero | hpos
  · rw [Double.isNegative_of_neg hd (by rw [hn]; exact_mod_cast hneg), if_pos rfl]
    omega
  · subst hzero
    split <;> rfl
  · rw [Double.isNegative_of_pos hd (by rw [hn]; exact_mod_cast hpos), if_neg (by decide)]
    omega

theorem wholeDegrees?_mul_one (k : Nat) : wholeDegrees? (k * one) = some k := by
  rw [wholeDegrees?, Nat.mul_mod_left, if_pos rfl, Nat.mul_div_cancel _ Double.one_pos]

end Angle

/-! ### The real functions -/

/-- A whole number of degrees, in radians. -/
noncomputable def radians (n : Int) : ℝ := n / 180 * pi

theorem radians_zero : radians 0 = 0 := by simp [radians]

theorem radians_neg (n : Int) : radians (-n) = -radians n := by
  simp only [radians]
  push_cast
  ring

theorem radians_thirty : radians 30 = pi / 6 := by
  simp only [radians]
  push_cast
  ring

theorem radians_fortyFive : radians 45 = pi / 4 := by
  simp only [radians]
  push_cast
  ring

theorem radians_sixty : radians 60 = pi / 3 := by
  simp only [radians]
  push_cast
  ring

theorem radians_ninety : radians 90 = pi / 2 := by
  simp only [radians]
  push_cast
  ring

theorem radians_halfTurn_sub (n : Int) : radians (180 - n) = pi - radians n := by
  simp only [radians]
  push_cast
  ring

theorem exists_radians_eq (n : Int) : ∃ r : ℚ, radians n = r * pi :=
  ⟨n / 180, by push_cast [radians]; rfl⟩

/-- Two angles have the same sine only if they are equal, or opposite each other across the
vertical, but for full turns. -/
theorem emod_of_sin_eq (h : Real.sin (radians m) = Real.sin (radians n)) :
    m % 360 = n % 360 ∨ m % 360 = (180 - n) % 360 := by
  obtain ⟨k, hk⟩ := Real.sin_eq_sin_iff.1 h
  have hpi := Real.pi_ne_zero
  simp only [radians] at hk
  rcases hk with hk | hk
  · left
    have hcast : (n : ℝ) = 360 * k + m := by
      field_simp at hk
      linarith
    have hint : n = 360 * k + m := by exact_mod_cast hcast
    omega
  · right
    have hcast : (n : ℝ) = 360 * k + 180 - m := by
      field_simp at hk
      linarith
    have hint : n = 360 * k + 180 - m := by exact_mod_cast hcast
    omega

/-- Two angles have the same cosine only if they are equal or opposite, but for full turns. -/
theorem emod_of_cos_eq (h : Real.cos (radians m) = Real.cos (radians n)) :
    m % 360 = n % 360 ∨ m % 360 = -n % 360 := by
  obtain ⟨k, hk⟩ := Real.cos_eq_cos_iff.1 h
  have hpi := Real.pi_ne_zero
  simp only [radians] at hk
  rcases hk with hk | hk
  · left
    have hcast : (n : ℝ) = 360 * k + m := by
      field_simp at hk
      linarith
    have hint : n = 360 * k + m := by exact_mod_cast hcast
    omega
  · right
    have hcast : (n : ℝ) = 360 * k - m := by
      field_simp at hk
      linarith
    have hint : n = 360 * k - m := by exact_mod_cast hcast
    omega

/-- Two angles have the same tangent only if they are equal but for half turns. -/
theorem emod_of_tan_eq (hm : Real.cos (radians m) ≠ 0) (hn : Real.cos (radians n) ≠ 0)
    (h : Real.tan (radians m) = Real.tan (radians n)) : m % 180 = n % 180 := by
  have hsin : Real.sin (radians m - radians n) = 0 := by
    rw [Real.tan_eq_sin_div_cos, Real.tan_eq_sin_div_cos, div_eq_div_iff hm hn] at h
    rw [Real.sin_sub, h]
    ring
  obtain ⟨k, hk⟩ := Real.sin_eq_zero_iff.1 hsin
  have hpi := Real.pi_ne_zero
  simp only [radians] at hk
  have hcast : (m : ℝ) = 180 * k + n := by
    field_simp at hk
    linarith
  have hint : m = 180 * k + n := by exact_mod_cast hcast
  omega

/-! ### Rational values -/

/-- The rational numbers that Niven's theorem leaves. -/
theorem cases_of_niven (h : (q : ℝ) ∈ ({-1, -1 / 2, 0, 1 / 2, 1} : Set ℝ)) :
    q = -1 ∨ q = -1 / 2 ∨ q = 0 ∨ q = 1 / 2 ∨ q = 1 := by
  have hcast (p : ℚ) (hp : (q : ℝ) = p) : q = p := by exact_mod_cast hp
  rcases h with h | h | h | h | h
  · exact .inl (hcast _ (by rw [h]; norm_num))
  · exact .inr (.inl (hcast _ (by rw [h]; norm_num)))
  · exact .inr (.inr (.inl (hcast _ (by rw [h]; norm_num))))
  · exact .inr (.inr (.inr (.inl (hcast _ (by rw [h]; norm_num)))))
  · exact .inr (.inr (.inr (.inr (hcast _ (by rw [h]; norm_num)))))

/-- Three is not the square of a rational number. -/
theorem sq_ne_three (p : ℚ) : p ^ 2 ≠ 3 := by
  intro hp
  have hsquare : IsSquare ((3 : ℕ) : ℚ) := ⟨p, by rw [← sq, hp, Nat.cast_ofNat]⟩
  exact Nat.prime_three.prime.not_isSquare (Rat.isSquare_natCast_iff.1 hsquare)

/-- A rational tangent of a whole number of degrees is zero or one in magnitude. -/
theorem cases_of_tan_eq (hcos : Real.cos (radians n) ≠ 0) (h : Real.tan (radians n) = q) :
    q = 0 ∨ q = 1 ∨ q = -1 := by
  -- the cosine of twice the angle is rational too
  have hdouble : Real.cos (2 * radians n) = 2 * (1 + (q : ℝ) ^ 2)⁻¹ - 1 := by
    rw [Real.cos_two_mul, ← Real.inv_one_add_tan_sq hcos, h]
  have hangle : ∃ r : ℚ, 2 * radians n = r * pi := ⟨2 * (n / 180), by push_cast [radians]; ring⟩
  have hrational : ∃ p : ℚ, Real.cos (2 * radians n) = p :=
    ⟨2 * (1 + q ^ 2)⁻¹ - 1, by rw [hdouble]; push_cast; rfl⟩
  have hpos : 1 + (q : ℝ) ^ 2 ≠ 0 := by positivity
  have hcases := niven hangle hrational
  simp only [hdouble, Set.mem_insert_iff, Set.mem_singleton_iff] at hcases
  field_simp at hcases
  have hsquare : (q : ℝ) ^ 2 = 3 ∨ (q : ℝ) ^ 2 = 1 ∨ (3 * q : ℝ) ^ 2 = 3 ∨ (q : ℝ) ^ 2 = 0 := by
    rcases hcases with hc | hc | hc | hc | hc
    · linarith
    · exact .inl (by linarith)
    · exact .inr (.inl (by linarith))
    · exact .inr (.inr (.inl (by linarith)))
    · exact .inr (.inr (.inr (by linarith)))
  rcases hsquare with hc | hc | hc | hc
  · exact absurd (by exact_mod_cast hc) (sq_ne_three q)
  · exact .inr (sq_eq_one_iff.1 (by exact_mod_cast hc))
  · exact absurd (by exact_mod_cast hc) (sq_ne_three (3 * q))
  · exact .inl ((pow_eq_zero_iff two_ne_zero).1 (by exact_mod_cast hc))

/-! ### The table -/

namespace Trig

/-- `x` is the value of the real function at a whole number of degrees.  The tangent has none where
the cosine is zero. -/
def HasValueAt (n : Int) (x : ℝ) : Trig → Prop
  | sin => Real.sin (radians n) = x
  | cos => Real.cos (radians n) = x
  | tan => Real.cos (radians n) ≠ 0 ∧ Real.tan (radians n) = x

/-- The table has the number `q` for a function at a number of degrees less than a turn. -/
def Gives (f : Trig) (k : Nat) (q : ℚ) : Prop :=
  ∃ v, f.special? k = some (.value v) ∧ v.isFinite ∧ Double.value v = q

section Entries

open Double (value_neg value_one value_half value_zero)

variable {f : Trig} {k : Nat}

theorem gives_zero (h : f.special? k = some (.value 0)) : f.Gives k 0 :=
  ⟨0, h, by decide, value_zero⟩

theorem gives_one (h : f.special? k = some (.value 1)) : f.Gives k 1 :=
  ⟨1, h, by decide, value_one⟩

theorem gives_half (h : f.special? k = some (.value 0.5)) : f.Gives k (1 / 2) :=
  ⟨0.5, h, by decide, value_half⟩

theorem gives_neg_one (h : f.special? k = some (.value (-1))) : f.Gives k (-1) :=
  ⟨-1, h, by decide, by rw [value_neg, value_one]⟩

theorem gives_neg_half (h : f.special? k = some (.value (-0.5))) : f.Gives k (-1 / 2) :=
  ⟨-0.5, h, by decide, by rw [value_neg, value_half, neg_div]⟩

end Entries

/-- A sine is in the table if it is the sine of an angle for which it is, and for the angle opposite
across the vertical. -/
theorem gives_of_sin_eq (m : Int) (h : Real.sin (radians n) = Real.sin (radians m))
    (hm : sin.Gives (m % 360).toNat q) (hopposite : sin.Gives ((180 - m) % 360).toNat q) :
    sin.Gives (n % 360).toNat q := by
  rcases emod_of_sin_eq h with heq | heq
  · rwa [heq]
  · rwa [heq]

/-- A cosine is in the table if it is the cosine of an angle for which it is, and for the opposite
one. -/
theorem gives_of_cos_eq (m : Int) (h : Real.cos (radians n) = Real.cos (radians m))
    (hm : cos.Gives (m % 360).toNat q) (hopposite : cos.Gives (-m % 360).toNat q) :
    cos.Gives (n % 360).toNat q := by
  rcases emod_of_cos_eq h with heq | heq
  · rwa [heq]
  · rwa [heq]

/-- A tangent is in the table if it is the tangent of an angle for which it is, and for the one half
a turn further on. -/
theorem gives_of_tan_eq (m : Int) (hn : Real.cos (radians n) ≠ 0) (hm : Real.cos (radians m) ≠ 0)
    (h : Real.tan (radians n) = Real.tan (radians m)) (hgives : tan.Gives (m % 360).toNat q)
    (hopposite : tan.Gives ((m + 180) % 360).toNat q) : tan.Gives (n % 360).toNat q := by
  have hmod := emod_of_tan_eq hn hm h
  rcases (by omega : n % 360 = m % 360 ∨ n % 360 = (m + 180) % 360) with heq | heq
  · rwa [heq]
  · rwa [heq]

/-- The table has the rational sines. -/
theorem gives_of_sin (h : Real.sin (radians n) = q) : sin.Gives (n % 360).toNat q := by
  have hniven := niven_sin (exists_radians_eq n) ⟨q, h⟩
  rw [h] at hniven
  rcases cases_of_niven hniven with rfl | rfl | rfl | rfl | rfl
  · refine gives_of_sin_eq (-90) ?_ (gives_neg_one rfl) (gives_neg_one rfl)
    rw [h, radians_neg, radians_ninety, Real.sin_neg, Real.sin_pi_div_two]
    norm_num
  · refine gives_of_sin_eq (-30) ?_ (gives_neg_half rfl) (gives_neg_half rfl)
    rw [h, radians_neg, radians_thirty, Real.sin_neg, Real.sin_pi_div_six]
    norm_num
  · refine gives_of_sin_eq 0 ?_ (gives_zero rfl) (gives_zero rfl)
    rw [h, radians_zero, Real.sin_zero, Rat.cast_zero]
  · refine gives_of_sin_eq 30 ?_ (gives_half rfl) (gives_half rfl)
    rw [h, radians_thirty, Real.sin_pi_div_six]
    norm_num
  · refine gives_of_sin_eq 90 ?_ (gives_one rfl) (gives_one rfl)
    rw [h, radians_ninety, Real.sin_pi_div_two, Rat.cast_one]

/-- The table has the rational cosines. -/
theorem gives_of_cos (h : Real.cos (radians n) = q) : cos.Gives (n % 360).toNat q := by
  have hniven := niven (exists_radians_eq n) ⟨q, h⟩
  rw [h] at hniven
  rcases cases_of_niven hniven with rfl | rfl | rfl | rfl | rfl
  · refine gives_of_cos_eq (180 - 0) ?_ (gives_neg_one rfl) (gives_neg_one rfl)
    rw [h, radians_halfTurn_sub, radians_zero, Real.cos_pi_sub, Real.cos_zero]
    norm_num
  · refine gives_of_cos_eq (180 - 60) ?_ (gives_neg_half rfl) (gives_neg_half rfl)
    rw [h, radians_halfTurn_sub, radians_sixty, Real.cos_pi_sub, Real.cos_pi_div_three]
    norm_num
  · refine gives_of_cos_eq 90 ?_ (gives_zero rfl) (gives_zero rfl)
    rw [h, radians_ninety, Real.cos_pi_div_two, Rat.cast_zero]
  · refine gives_of_cos_eq 60 ?_ (gives_half rfl) (gives_half rfl)
    rw [h, radians_sixty, Real.cos_pi_div_three]
    norm_num
  · refine gives_of_cos_eq 0 ?_ (gives_one rfl) (gives_one rfl)
    rw [h, radians_zero, Real.cos_zero, Rat.cast_one]

/-- The table has the rational tangents. -/
theorem gives_of_tan (hcos : Real.cos (radians n) ≠ 0) (h : Real.tan (radians n) = q) :
    tan.Gives (n % 360).toNat q := by
  have hroot : Real.cos (pi / 4) ≠ 0 := by
    rw [Real.cos_pi_div_four]
    positivity
  rcases cases_of_tan_eq hcos h with rfl | rfl | rfl
  · refine gives_of_tan_eq 0 hcos ?_ ?_ (gives_zero rfl) (gives_zero rfl)
    · rw [radians_zero, Real.cos_zero]
      exact one_ne_zero
    · rw [h, radians_zero, Real.tan_zero, Rat.cast_zero]
  · refine gives_of_tan_eq 45 hcos ?_ ?_ (gives_one rfl) (gives_one rfl)
    · rwa [radians_fortyFive]
    · rw [h, radians_fortyFive, Real.tan_pi_div_four, Rat.cast_one]
  · refine gives_of_tan_eq (-45) hcos ?_ ?_ (gives_neg_one rfl) (gives_neg_one rfl)
    · rwa [radians_neg, radians_fortyFive, Real.cos_neg]
    · rw [h, radians_neg, radians_fortyFive, Real.tan_neg, Real.tan_pi_div_four, Rat.cast_neg,
        Rat.cast_one]

/-- The table has every rational value at a whole number of degrees. -/
theorem gives_of_hasValueAt {f : Trig} (h : f.HasValueAt n q) : f.Gives (n % 360).toNat q := by
  cases f with
  | sin => exact gives_of_sin h
  | cos => exact gives_of_cos h
  | tan => exact gives_of_tan h.1 h.2

/-! ### Functions of whole angles -/

/-- A function of an angle depends on the reduced angle alone. -/
theorem ofDegrees_congr (f : Trig) {d' : Float} (hd : d.isFinite) (hd' : d'.isFinite)
    (h : Angle.units d = Angle.units d') : f.ofDegrees d = f.ofDegrees d' := by
  simp only [ofDegrees, Angle.reduced, hd, hd', h]

/-- A function of a whole number of degrees is what the table says. -/
theorem ofDegrees_of_special? {f : Trig} (hd : d.isFinite) (hn : Double.value d = n) {x : Special}
    (h : f.special? (n % 360).toNat = some x) :
    f.ofDegrees d = match x with
      | .value v => .ok v
      | .undefined => .error .outOfDomain := by
  have hbind : (Angle.wholeDegrees? (Angle.units d)).bind f.special? = some x := by
    rw [Angle.units_of_whole hd hn, Angle.wholeDegrees?_mul_one, Option.bind_some, h]
  rw [ofDegrees, hd, hbind]
  cases x <;> rfl

/-- **The functions are periodic and exact on whole numbers of degrees.**  If an angle is a whole
number of degrees, of any size and sign, a function of it is the function of what it leaves when
full turns are taken away.  The tangent is undefined at one and at three quarters of a turn, and
where the real function has a rational value — which is zero, a half or one in magnitude — the
result is this number and no other. -/
theorem ofDegrees_whole (f : Trig) (hd : d.isFinite) (hn : Double.value d = n) :
    (∀ r : Float, r.isFinite → Double.value r = (n % 360 : Int) →
      f.ofDegrees d = f.ofDegrees r) ∧
    (f = tan → n % 360 = 90 ∨ n % 360 = 270 → f.ofDegrees d = .error .outOfDomain) ∧
    (∀ q : ℚ, f.HasValueAt (n % 360) q →
      ∃ v, f.ofDegrees d = .ok v ∧ v.isFinite ∧ Double.value v = q) := by
  refine ⟨?_, ?_, ?_⟩
  · intro r hr hvalue
    refine ofDegrees_congr f hd hr ?_
    rw [Angle.units_of_whole hd hn, Angle.units_of_whole hr hvalue, Int.emod_emod]
  · rintro rfl hquarter
    refine ofDegrees_of_special? hd hn (x := .undefined) ?_
    rcases hquarter with h | h <;> rw [h] <;> rfl
  · intro q hq
    obtain ⟨v, hspecial, hfinite, hvalue⟩ := gives_of_hasValueAt hq
    rw [Int.emod_emod] at hspecial
    exact ⟨v, ofDegrees_of_special? hd hn hspecial, hfinite, hvalue⟩

/-- A large negative angle: −30 · 2⁶⁰ degrees leave 240 degrees, of which the cosine is minus one
half. -/
theorem ofDegrees_whole_large :
    let d := Float.ofBits 0xC3FE000000000000
    let r := Float.ofBits 0x406E000000000000
    d.isFinite ∧ Double.value d = (-30 * 2 ^ 60 : Int) ∧ r.isFinite ∧
      Double.value r = ((-30 * 2 ^ 60) % 360 : Int) ∧ cos.ofDegrees d = cos.ofDegrees r ∧
      ∃ v, cos.ofDegrees d = .ok v ∧ v.isFinite ∧ Double.value v = -1 / 2 := by
  intro d r
  have hd : d.isFinite := by decide
  have hr : r.isFinite := by decide
  have hdsign : Double.isNegative d = true := by decide
  have hrsign : Double.isNegative r = false := by decide
  have hmod : (-30 * 2 ^ 60 : Int) % 360 = 180 - -60 := by decide
  have hdvalue : Double.value d = (-30 * 2 ^ 60 : Int) := by
    rw [Double.value_of_bits (e := 1087) (m := 0xE000000000000) hd (by decide) (by decide)
      (by decide), hdsign]
    norm_num [Double.leadingBit]
  have hrvalue : Double.value r = ((-30 * 2 ^ 60) % 360 : Int) := by
    rw [Double.value_of_bits (e := 1030) (m := 0xE000000000000) hr (by decide) (by decide)
      (by decide), hrsign, hmod]
    norm_num [Double.leadingBit]
  have hcos : cos.HasValueAt ((-30 * 2 ^ 60) % 360) (-1 / 2 : ℚ) := by
    rw [hmod, HasValueAt, radians_halfTurn_sub, radians_neg, radians_sixty, Real.cos_pi_sub,
      Real.cos_neg, Real.cos_pi_div_three]
    norm_num
  obtain ⟨hperiodic, -, hexact⟩ := ofDegrees_whole cos hd hdvalue
  exact ⟨hd, hdvalue, hr, hrvalue, hperiodic r hr hrvalue, hexact _ hcos⟩

end Trig

end Calculator
