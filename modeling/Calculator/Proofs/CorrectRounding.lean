/-
**Numbers are rounded correctly.**

Of all finite doubles, the one that a literal is read as is nearest to the decimal that is written,
and if another one is equally near, it is the one with the even mantissa.

A quotient is rounded on the grid of its own binade, and on a grid rounding to the nearest whole
number is right.  The doubles of greater binades lie on this grid.  Those of smaller binades need
not, but between them and the quotient there is the smallest number of its binade, which does.

Main results

* `Calculator.roundQuotient_nearest` — no whole number is nearer to a quotient, or as near unless
  the rounded one is even;
* `Calculator.Double.unitsOfBits_nearestBits`, `Calculator.Double.unitsOfBits_grid` — on which grid
  a quotient is rounded, and which doubles lie on it;
* `Calculator.Double.nearestBits_nearest` — **no double is nearer to a quotient of units**;
* `Calculator.Double.value_ofMagnitudeBits` — the worth of a double that is made of bits;
* `Calculator.Decimal.toFloat_nearest` — **no double is nearer to a decimal than the one it is read
  as**.
-/

import Calculator.Proofs.NearestDouble

set_option autoImplicit false

namespace Calculator

/-! ### Rounding to a whole number -/

section Round

variable {num den : Nat}

/-- A quotient that is not below a whole number is not rounded below it. -/
theorem le_roundQuotient (hden : 0 < den) {m : Nat} (h : m * den ≤ num) :
    m ≤ roundQuotient num den := by
  have hfloor : m ≤ num / den := (Nat.le_div_iff_mul_le hden).2 h
  rcases roundQuotient_cases num den with ⟨hround, -⟩ | ⟨hround, -⟩ <;> omega

/-- A quotient halfway between two whole numbers is rounded to the even one. -/
theorem roundQuotient_mod_two (h : 2 * (num % den) = den) : roundQuotient num den % 2 = 0 := by
  simp only [roundQuotient]
  rw [if_neg (by omega), if_neg (by omega)]
  split <;> omega

/-- A quotient that is a half away from what it is rounded to lies halfway. -/
theorem two_mul_mod_of_abs_eq (hden : 0 < den)
    (h : |(roundQuotient num den : ℚ) - num / den| = 1 / 2) : 2 * (num % den) = den := by
  have hden' : (0 : ℚ) < den := by exact_mod_cast hden
  have hhalf : ((num % den : Nat) : ℚ) / den = 1 / 2 := by
    rw [div_eq_add_mod_div num hden] at h
    have hnonneg : (0 : ℚ) ≤ ((num % den : Nat) : ℚ) / den := by positivity
    rcases roundQuotient_cases num den with ⟨hround, -⟩ | ⟨hround, -⟩
    · rw [hround, sub_add_cancel_left, abs_neg, abs_of_nonneg hnonneg] at h
      exact h
    · have hless : ((num % den : Nat) : ℚ) / den < 1 := by
        rw [div_lt_one hden']
        exact_mod_cast Nat.mod_lt num hden
      rw [hround, Nat.cast_add, Nat.cast_one, add_sub_add_left_eq_sub,
        abs_of_pos (by linarith)] at h
      linarith
  rw [div_eq_div_iff hden'.ne' two_ne_zero, one_mul] at hhalf
  have hcross : num % den * 2 = den := by exact_mod_cast hhalf
  omega

/-- No whole number is nearer to a quotient than the one it is rounded to, and none is as near
unless that one is even. -/
theorem roundQuotient_nearest (num : Nat) (hden : 0 < den) (m : Nat) :
    |(roundQuotient num den : ℚ) - num / den| ≤ |(m : ℚ) - num / den| ∧
      (|(roundQuotient num den : ℚ) - num / den| = |(m : ℚ) - num / den| →
        m = roundQuotient num den ∨ roundQuotient num den % 2 = 0) := by
  rcases eq_or_ne m (roundQuotient num den) with rfl | hne
  · exact ⟨le_refl _, fun _ => .inl rfl⟩
  · have hround := abs_roundQuotient_sub_le num hden
    -- two whole numbers are at least one apart, so one of them is at least a half away
    have hapart : (1 : ℚ) ≤ |(m : ℚ) - num / den| + |(roundQuotient num den : ℚ) - num / den| := by
      have hstep : (1 : ℚ) ≤ |(m : ℚ) - roundQuotient num den| := by
        exact_mod_cast Int.one_le_abs (show (m : Int) - roundQuotient num den ≠ 0 by omega)
      have htriangle := abs_sub_le (m : ℚ) (num / den) (roundQuotient num den)
      rw [abs_sub_comm ((num : ℚ) / den)] at htriangle
      exact hstep.trans htriangle
    refine ⟨by linarith, fun htie => .inr ?_⟩
    exact roundQuotient_mod_two (two_mul_mod_of_abs_eq hden (by linarith))

end Round

namespace Double

open Float.Model (UnpackedFloat)
open Float.Model.UnpackedFloat (Sign unpackSign)

/-! ### Grids -/

/-- The units of a mantissa with its scale, also if the mantissa is one too large. -/
theorem unitsOfBits_add {s m : Nat} (hm : m ≤ 2 * leadingBit) (hs : s = 0 ∨ leadingBit ≤ m) :
    unitsOfBits (s * leadingBit + m) = m * 2 ^ s := by
  rcases Nat.lt_or_ge m leadingBit with hlow | hhigh
  · have hzero : s = 0 := hs.resolve_right (by omega)
    rw [hzero, Nat.zero_mul, Nat.zero_add, unitsOfBits_of_subnormal hlow, pow_zero, Nat.mul_one]
  · obtain ⟨t, rfl⟩ := Nat.exists_eq_add_of_le hhigh
    rcases Nat.lt_or_ge t leadingBit with hless | hcarry
    · have hfields : s * leadingBit + (leadingBit + t) = (s + 1) * leadingBit + t := by ring
      rw [hfields, unitsOfBits_of_normal s.succ_ne_zero hless, Nat.succ_sub_one]
    · -- the mantissa is carried into the next binade
      have ht : t = leadingBit := by omega
      have hfields : s * leadingBit + (leadingBit + t) = (s + 2) * leadingBit + 0 := by
        rw [ht]
        ring
      calc unitsOfBits (s * leadingBit + (leadingBit + t))
          = (leadingBit + 0) * 2 ^ (s + 1) := by
            rw [hfields, unitsOfBits_of_normal (by omega) (by decide)]
            rfl
        _ = (leadingBit + t) * 2 ^ s := by
            rw [ht, pow_succ]
            ring

/-- A double lies on the grid of a binade, or below the smallest number of this binade.  Every
double lies on the finest grid. -/
theorem unitsOfBits_grid (b s : Nat) :
    (∃ m, unitsOfBits b = m * 2 ^ s) ∨ s ≠ 0 ∧ unitsOfBits b < leadingBit * 2 ^ s := by
  have hfields : b / leadingBit * leadingBit + b % leadingBit = b := Nat.div_add_mod' b leadingBit
  have hmantissa : b % leadingBit < leadingBit := Nat.mod_lt _ (by decide)
  rcases Nat.eq_zero_or_pos s with rfl | hs
  · exact .inl ⟨unitsOfBits b, by rw [pow_zero, Nat.mul_one]⟩
  rcases Nat.eq_zero_or_pos (b / leadingBit) with hzero | hpos
  · right
    rw [hzero, Nat.zero_mul, Nat.zero_add] at hfields
    rw [← hfields, unitsOfBits_of_subnormal hmantissa]
    exact ⟨hs.ne', Nat.lt_of_lt_of_le hmantissa (Nat.le_mul_of_pos_right _ (by positivity))⟩
  · obtain ⟨e, he⟩ := Nat.exists_eq_add_of_lt hpos
    have hunits : unitsOfBits b = (leadingBit + b % leadingBit) * 2 ^ e := by
      conv_lhs => rw [← hfields]
      rw [unitsOfBits_of_normal hpos.ne' hmantissa, he, Nat.zero_add, Nat.add_sub_cancel]
    rcases Nat.lt_or_ge e s with hless | hge
    · refine .inr ⟨hs.ne', ?_⟩
      calc unitsOfBits b = (leadingBit + b % leadingBit) * 2 ^ e := hunits
        _ < (leadingBit * 2) * 2 ^ e := Nat.mul_lt_mul_of_pos_right (by omega) (by positivity)
        _ = leadingBit * 2 ^ (e + 1) := by rw [Nat.mul_assoc, ← pow_succ']
        _ ≤ leadingBit * 2 ^ s := Nat.mul_le_mul_left _ (Nat.pow_le_pow_right (by decide) hless)
    · left
      obtain ⟨k, rfl⟩ := Nat.exists_eq_add_of_le hge
      exact ⟨(leadingBit + b % leadingBit) * 2 ^ k, by rw [hunits, pow_add]; ring⟩

section Nearest

variable {num den : Nat} (hden : 0 < den)

include hden

/-- On the grid of its binade a quotient is rounded to a mantissa with at most one digit too many.
-/
theorem roundQuotient_shift_le :
    roundQuotient num (den * 2 ^ shift (num / den)) ≤ 2 * leadingBit := by
  have hlog : Nat.log2 (num / den) + 1 ≤ 53 + shift (num / den) := by
    rw [shift]
    omega
  have hfloor : num / den < 2 ^ (53 + shift (num / den)) :=
    Nat.lt_of_lt_of_le Nat.lt_log2_self (Nat.pow_le_pow_right (by decide) hlog)
  refine roundQuotient_le (by positivity) (Nat.le_of_lt ?_)
  calc num < 2 ^ (53 + shift (num / den)) * den := (Nat.div_lt_iff_lt_mul hden).1 hfloor
    _ = 2 * leadingBit * (den * 2 ^ shift (num / den)) := by
      rw [pow_add, show 2 ^ 53 = 2 * leadingBit from rfl]
      ring

/-- If anything is cut off, the quotient is not below the smallest number of its binade. -/
theorem leadingBit_mul_le (h : shift (num / den) ≠ 0) :
    leadingBit * (den * 2 ^ shift (num / den)) ≤ num := by
  have hlog : 52 + shift (num / den) = Nat.log2 (num / den) := by
    rw [shift] at h ⊢
    omega
  have hne : num / den ≠ 0 := by
    intro hzero
    rw [hzero] at h
    exact h rfl
  calc leadingBit * (den * 2 ^ shift (num / den))
      = 2 ^ (52 + shift (num / den)) * den := by
        rw [pow_add, show 2 ^ 52 = leadingBit from rfl]
        ring
    _ ≤ num := by
        rw [hlog, ← Nat.le_div_iff_mul_le hden]
        exact Nat.log2_self_le hne

/-- The units of the nearest double. -/
theorem unitsOfBits_nearestBits (hfinite : nearestBits num den < infinityBits) :
    nearestBits num den =
        shift (num / den) * leadingBit + roundQuotient num (den * 2 ^ shift (num / den)) ∧
      unitsOfBits (nearestBits num den) =
        roundQuotient num (den * 2 ^ shift (num / den)) * 2 ^ shift (num / den) := by
  have hbits : nearestBits num den =
      shift (num / den) * leadingBit + roundQuotient num (den * 2 ^ shift (num / den)) := by
    refine Nat.min_eq_right (Nat.le_of_lt (Nat.lt_of_not_le fun hle => ?_))
    exact absurd hfinite (Nat.not_lt.2 (Nat.le_of_eq (Nat.min_eq_left hle).symm))
  refine ⟨hbits, ?_⟩
  rw [hbits]
  refine unitsOfBits_add (roundQuotient_shift_le hden) ?_
  rcases Nat.eq_zero_or_pos (shift (num / den)) with hzero | hpos
  · exact .inl hzero
  · exact .inr (le_roundQuotient (by positivity) (leadingBit_mul_le hden hpos.ne'))

/-- Rounding on a grid: no number of the grid is nearer, or as near unless the multiple that is
taken is even. -/
theorem roundQuotient_nearest_grid (num s m : Nat) :
    |((roundQuotient num (den * 2 ^ s) * 2 ^ s : Nat) : ℚ) - num / den| ≤
        |((m * 2 ^ s : Nat) : ℚ) - num / den| ∧
      (|((roundQuotient num (den * 2 ^ s) * 2 ^ s : Nat) : ℚ) - num / den| =
          |((m * 2 ^ s : Nat) : ℚ) - num / den| →
        m = roundQuotient num (den * 2 ^ s) ∨ roundQuotient num (den * 2 ^ s) % 2 = 0) := by
  have hscale : (0 : ℚ) < 2 ^ s := by positivity
  have hden' : (den : ℚ) ≠ 0 := by exact_mod_cast hden.ne'
  -- distances on the grid are those of whole numbers, scaled
  have hdist (k : Nat) : |((k * 2 ^ s : Nat) : ℚ) - num / den| =
      |(k : ℚ) - num / (den * 2 ^ s : Nat)| * 2 ^ s := by
    have hscaled : ((k * 2 ^ s : Nat) : ℚ) - num / den =
        ((k : ℚ) - num / (den * 2 ^ s : Nat)) * 2 ^ s := by
      push_cast
      field_simp
    rw [hscaled, abs_mul, abs_of_pos hscale]
  have hgrid : 0 < den * 2 ^ s := by positivity
  obtain ⟨hle, htie⟩ := roundQuotient_nearest num hgrid m
  rw [hdist, hdist]
  refine ⟨mul_le_mul_of_nonneg_right hle hscale.le, fun heq => htie ?_⟩
  exact mul_right_cancel₀ hscale.ne' heq

/-- **No double is nearer to a quotient of units.**  Another one that is as near gives way to an
even mantissa. -/
theorem nearestBits_nearest (hfinite : nearestBits num den < infinityBits) {b : Nat}
    (hb : b < infinityBits) :
    |(unitsOfBits (nearestBits num den) : ℚ) - num / den| ≤ |(unitsOfBits b : ℚ) - num / den| ∧
      (|(unitsOfBits (nearestBits num den) : ℚ) - num / den| = |(unitsOfBits b : ℚ) - num / den| →
        b = nearestBits num den ∨ nearestBits num den % 2 = 0) := by
  obtain ⟨hbits, hunits⟩ := unitsOfBits_nearestBits hden hfinite
  have hgrid := roundQuotient_nearest_grid hden num (shift (num / den))
  rcases unitsOfBits_grid b (shift (num / den)) with ⟨m, hm⟩ | ⟨hshift, hbelow⟩
  · obtain ⟨hle, htie⟩ := hgrid m
    rw [hunits, hm]
    refine ⟨hle, fun heq => ?_⟩
    rcases htie heq with hsame | heven
    · left
      rw [← nearestBits_unitsOfBits hb, hm, hsame, ← hunits, nearestBits_unitsOfBits hfinite]
    · right
      have hscaled : shift (num / den) * leadingBit =
          2 * (shift (num / den) * 0x8000000000000) := by
        rw [leadingBit]
        ring
      omega
  · -- the smallest number of the binade is between the double and the quotient
    have hden' : (0 : ℚ) < den := by exact_mod_cast hden
    have hsmallest : ((leadingBit * 2 ^ shift (num / den) : Nat) : ℚ) ≤ num / den := by
      rw [le_div_iff₀ hden']
      have hle := leadingBit_mul_le hden hshift
      rw [Nat.mul_comm den, ← Nat.mul_assoc] at hle
      exact_mod_cast hle
    have hbelow' : (unitsOfBits b : ℚ) < (leadingBit * 2 ^ shift (num / den) : Nat) := by
      exact_mod_cast hbelow
    have hbetween : |((leadingBit * 2 ^ shift (num / den) : Nat) : ℚ) - num / den| <
        |(unitsOfBits b : ℚ) - num / den| := by
      rw [abs_of_nonpos (by linarith), abs_of_nonpos (by linarith)]
      linarith
    have hless := (hgrid leadingBit).1.trans_lt hbetween
    rw [hunits]
    exact ⟨hless.le, fun heq => absurd heq hless.ne⟩

end Nearest

/-! ### Doubles made of bits -/

section OfBits

variable {b : Nat} (hb : b < infinityBits)

include hb

/-- The word of a finite magnitude. -/
theorem toNat_word_of_lt : (UInt64.ofNat b).toBitVec.toNat = b :=
  UInt64.toNat_ofNat_of_lt (Nat.lt_trans hb (by decide))

theorem isFinite_unpack_word :
    (UnpackedFloat.unpack format (UInt64.ofNat b).toBitVec).isFinite = true := by
  rw [isFinite_unpack, toNat_word_of_lt hb, Nat.mod_eq_of_lt (Nat.lt_trans hb (by decide))]
  exact hb

/-- The double made of the bits of a finite magnitude is worth its units. -/
theorem value_ofMagnitudeBits : value (ofMagnitudeBits b) = unitsOfBits b / one := by
  let m : BitVec format.numBits := (UInt64.ofNat b).toBitVec
  have hsign : unpackSign m = 0#1 := by
    rw [unpackSign_eq_zero_iff, toNat_word_of_lt hb]
    exact Nat.lt_trans hb (by decide)
  calc value (ofMagnitudeBits b)
      = numberOf (UnpackedFloat.unpack format
          (UnpackedFloat.pack format (UnpackedFloat.unpack format m))) := rfl
    _ = signFactor (Sign.ofBitVec (unpackSign m)) * (unitsOfBits (m.toNat % signBit) / one) := by
        rw [unpack_pack_unpack, numberOf_unpack (isFinite_unpack_word hb)]
    _ = unitsOfBits b / one := by
        rw [hsign, toNat_word_of_lt hb, Nat.mod_eq_of_lt (Nat.lt_trans hb (by decide))]
        exact one_mul _

end OfBits

theorem isFinite_ofMagnitudeBits_nearestBits {num den : Nat}
    (h : (ofMagnitudeBits (nearestBits num den)).isFinite) :
    nearestBits num den < infinityBits := by
  refine Nat.lt_of_le_of_ne (Nat.min_le_left _ _) fun heq => ?_
  rw [heq] at h
  exact absurd h (by decide)

end Double

/-! ### Literals -/

/-- **No double is nearer to a decimal than the one it is read as**, unless the decimal is too
large for every finite double. -/
theorem Decimal.toFloat_nearest (d : Decimal) (hd : d.toFloat.isFinite) {v : Float}
    (hv : v.isFinite) :
    |Double.value d.toFloat - d.value| ≤ |Double.value v - d.value| := by
  obtain ⟨num, den, hden, hbits, hworth⟩ := d.exists_nearestBits_eq
  rw [d.toFloat_eq, hbits] at hd ⊢
  have hone : (0 : ℚ) < Double.one := by exact_mod_cast Double.one_pos
  have hfinite := Double.isFinite_ofMagnitudeBits_nearestBits hd
  have hunits := (Double.nearestBits_nearest hden hfinite (Double.isFinite_iff.1 hv)).1
  have hvalue : 0 ≤ d.value := by
    rw [Decimal.value]
    positivity
  -- what is as near in units is as near in worth
  have hscaled (n : Nat) :
      |(n : ℚ) - num / den| = |(n : ℚ) / Double.one - d.value| * Double.one := by
    rw [hworth, ← abs_of_pos hone, ← abs_mul, abs_of_pos hone, sub_mul, div_mul_cancel₀ _ hone.ne']
  rw [hscaled, hscaled, mul_le_mul_iff_of_pos_right hone] at hunits
  calc |Double.value (Double.ofMagnitudeBits (Double.nearestBits num den)) - d.value|
      ≤ |(Double.units v : ℚ) / Double.one - d.value| := by
        rw [Double.value_ofMagnitudeBits hfinite]
        exact hunits
    _ = |(|Double.value v|) - (|d.value|)| := by rw [Double.abs_value hv, abs_of_nonneg hvalue]
    _ ≤ |Double.value v - d.value| := abs_abs_sub_abs_le _ _

end Calculator
