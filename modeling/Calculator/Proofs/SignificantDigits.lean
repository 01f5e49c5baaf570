/-
**How many significant digits the screen shows.**

The significant digits of a text are the ones from the first that is not zero to the last that is
not zero.  Neither a point nor the zeros around them matter, so the positional text of a quotient
has the significant digits of its numerator, and how many these are is a question of which power of
ten divides it.

The screen keeps twelve significant digits by leaving out decimals, so nothing is left out of a
whole part: below `10 ^ 12` there are never more than twelve, also if rounding carries into a new
digit, but from there on all digits of the nearest whole number are shown.  The double nearest to
`10 ^ 23` is not `10 ^ 23`, and is shown with twenty-three of them.

Main definitions

* `Calculator.significantDigits` — the significant digits of a text;
* `Calculator.nearestWhole` — the whole number nearest to a number's magnitude.

Main results

* `Calculator.significantDigits_text_ofQuotient` — the significant digits of a plain text;
* `Calculator.length_significantDigits_digits_le_iff` — how many a numeral has;
* `Calculator.displayText_significant_iff` — **exactly which numbers are shown with at most twelve
  significant digits**;
* `Calculator.displayText_many_significant` — a number that is shown with more.
-/

import Calculator.Proofs.DisplayText

set_option autoImplicit false

namespace Calculator

/-! ### Significant digits -/

/-- The digits of a text from the first one that is not zero to the last one that is not zero. -/
def significantDigits (cs : List Char) : List Char :=
  dropTrailingZeros ((cs.filter Char.isDigit).dropWhile (· == '0'))

theorem filter_isDigit_replicate_zero (k : Nat) :
    (List.replicate k '0').filter Char.isDigit = List.replicate k '0' :=
  List.filter_replicate_of_pos rfl

/-- Zeros in front are not significant. -/
theorem significantDigits_replicate_zero_append (k : Nat) (cs : List Char) :
    significantDigits (List.replicate k '0' ++ cs) = significantDigits cs := by
  rw [significantDigits, List.filter_append, filter_isDigit_replicate_zero,
    dropWhile_replicate_zero, significantDigits]

/-- Zeros at the end are not significant. -/
theorem significantDigits_append_replicate_zero (cs : List Char) (k : Nat) :
    significantDigits (cs ++ List.replicate k '0') = significantDigits cs := by
  rw [significantDigits, List.filter_append, filter_isDigit_replicate_zero, List.dropWhile_append]
  split
  · rename_i hzeros
    have hnil := dropWhile_replicate_zero k []
    rw [List.append_nil] at hnil
    rw [hnil, significantDigits, List.isEmpty_iff.1 hzeros]
    rfl
  · rw [dropTrailingZeros_append_replicate_zero, significantDigits]

/-- The sign and the point are no digits. -/
theorem significantDigits_text (p : PlainNumber) :
    significantDigits p.text = significantDigits (p.whole ++ p.fraction) := by
  have hsign : p.text.filter Char.isDigit = p.digitsText.filter Char.isDigit := by
    unfold PlainNumber.text
    split <;> rfl
  have hpoint : p.digitsText.filter Char.isDigit = (p.whole ++ p.fraction).filter Char.isDigit := by
    unfold PlainNumber.digitsText
    split
    · rename_i hempty
      rw [List.isEmpty_iff.1 hempty]
    · rw [List.filter_append, List.filter_append]
      rfl
  rw [significantDigits, hsign, hpoint, significantDigits]

/-- The digits around the point are those of the numerator, with zeros in front perhaps. -/
theorem exists_digits_append_fractionDigits (q places : Nat) :
    ∃ k, digits (q / tenPow places) ++ fractionDigits q places =
      List.replicate k '0' ++ digits q := by
  have hlength : (digits q).length ≤ (digits (q / tenPow places)).length + places := by
    have hpos := length_digits_pos (q / tenPow places)
    have hlt := (length_digits_le_iff hpos).1 (le_refl _)
    rw [length_digits_le_iff (by omega), pow_add]
    rwa [Nat.div_lt_iff_lt_mul (tenPow_pos places)] at hlt
  refine ⟨(digits (q / tenPow places)).length + places - (digits q).length,
    eq_of_ofDigits_eq ?_ ?_ ?_ ?_⟩
  · intro c hc
    rcases List.mem_append.1 hc with hc | hc
    · exact isDigit_of_mem_digits hc
    · exact isDigit_of_mem_fractionDigits hc
  · intro c hc
    rcases List.mem_append.1 hc with hc | hc
    · rw [List.eq_of_mem_replicate hc]
      rfl
    · exact isDigit_of_mem_digits hc
  · rw [List.length_append, length_fractionDigits, List.length_append, List.length_replicate]
    omega
  · rw [ofDigits_append_fractionDigits, ofDigits_append, ofDigits_replicate_zero, ofDigits_digits,
      Nat.zero_mul, Nat.zero_add]

/-- The positional text of a quotient has the significant digits of the numerator. -/
theorem significantDigits_text_ofQuotient (negative : Bool) (q places : Nat) :
    significantDigits (PlainNumber.ofQuotient negative q places).text =
      significantDigits (digits q) := by
  obtain ⟨k, hk⟩ := exists_eq_dropTrailingZeros_append (fractionDigits q places)
  obtain ⟨j, hj⟩ := exists_digits_append_fractionDigits q places
  calc significantDigits (PlainNumber.ofQuotient negative q places).text
      = significantDigits
          (digits (q / tenPow places) ++ dropTrailingZeros (fractionDigits q places)) :=
        significantDigits_text _
    _ = significantDigits (digits (q / tenPow places) ++ fractionDigits q places) := by
        rw [← significantDigits_append_replicate_zero _ k, List.append_assoc, ← hk]
    _ = significantDigits (digits q) := by
        rw [hj, significantDigits_replicate_zero_append]

/-! ### Numerals -/

/-- A numeral does not start with a zero, unless it is the one of zero. -/
theorem dropWhile_zero_digits {q : Nat} (hq : 0 < q) :
    (digits q).dropWhile (· == '0') = digits q := by
  induction q using Nat.strongRecOn with
  | _ q ih =>
      by_cases hlt : q < 10
      · have hne : digitChar q ≠ '0' := by
          intro hzero
          have hvalue := digitValue_digitChar hlt
          rw [hzero] at hvalue
          exact hq.ne hvalue
        rw [digits_of_lt hlt]
        simp [hne]
      · rw [digits_of_ge hlt, List.dropWhile_append, ih _ (by omega) (by omega), if_neg]
        simpa using digits_ne_nil (q / 10)

/-- A numeral is filtered to itself. -/
theorem significantDigits_digits {q : Nat} (hq : 0 < q) :
    significantDigits (digits q) = dropTrailingZeros (digits q) := by
  have hfilter : (digits q).filter Char.isDigit = digits q :=
    List.filter_eq_self.2 fun _ => isDigit_of_mem_digits
  rw [significantDigits, hfilter, dropWhile_zero_digits hq]

/-- A power of ten as a factor is zeros at the end of the numeral. -/
theorem digits_mul_tenPow {m : Nat} (hm : 0 < m) (k : Nat) :
    digits (m * 10 ^ k) = digits m ++ List.replicate k '0' := by
  induction k with
  | zero => simp
  | succ k ih =>
      have hpos : 0 < m * 10 ^ k := Nat.mul_pos hm (by positivity)
      have hzero : digitChar 0 = '0' := rfl
      rw [Nat.pow_succ, ← Nat.mul_assoc, digits_of_ge (by omega), Nat.mul_div_cancel _ (by decide),
        Nat.mul_mod_left, ih, hzero, List.append_assoc, ← List.replicate_succ']

/-- A numeral has at most `k` significant digits if all the places behind the first `k` are zeros.
-/
theorem length_significantDigits_digits_le_iff (q k : Nat) :
    (significantDigits (digits q)).length ≤ k ↔ 10 ^ ((digits q).length - k) ∣ q := by
  rcases Nat.eq_zero_or_pos q with rfl | hq
  · have hnone : significantDigits (digits 0) = [] := by
      rw [digits_of_lt (by decide)]
      rfl
    rw [hnone]
    exact iff_of_true (Nat.zero_le k) (dvd_zero _)
  rw [significantDigits_digits hq]
  constructor
  · intro hle
    obtain ⟨j, hj⟩ := exists_eq_dropTrailingZeros_append (digits q)
    have hlength := congrArg List.length hj
    rw [List.length_append, List.length_replicate] at hlength
    have hworth : q = ofDigits (dropTrailingZeros (digits q)) * 10 ^ j := by
      calc q = ofDigits (digits q) := (ofDigits_digits q).symm
        _ = ofDigits (dropTrailingZeros (digits q)) * 10 ^ j := by
          rw [congrArg ofDigits hj, ofDigits_append, ofDigits_replicate_zero, List.length_replicate,
            Nat.add_zero]
    exact (pow_dvd_pow 10 (by omega)).trans (Dvd.intro_left _ hworth.symm)
  · rintro ⟨m, hm⟩
    have hmpos : 0 < m := Nat.pos_of_ne_zero (by rintro rfl; omega)
    have hdigits : digits q = digits m ++ List.replicate ((digits q).length - k) '0' := by
      rw [← digits_mul_tenPow hmpos, Nat.mul_comm, ← hm]
    have hlength := congrArg List.length hdigits
    rw [List.length_append, List.length_replicate] at hlength
    obtain ⟨i, hi⟩ := exists_eq_dropTrailingZeros_append (digits m)
    have hshorter := congrArg List.length hi
    rw [List.length_append] at hshorter
    rw [hdigits, dropTrailingZeros_append_replicate_zero]
    omega

/-! ### The screen -/

section Number

variable {v : Float}

/-- The whole number nearest to the magnitude of a number, half to even. -/
def nearestWhole (v : Float) : Nat := roundQuotient (Double.units v) Double.one

/-- Below `10 ^ 12` a number is at most `10 ^ 12` units of the last decimal that is shown. -/
theorem roundQuotient_le_of_lt (hv : v.isFinite) (hlt : |Double.value v| < 10 ^ 12) :
    roundQuotient (Double.units v * tenPow (shownPlaces v)) Double.one ≤ 10 ^ 12 := by
  rcases Nat.eq_zero_or_pos (Double.units v) with hzero | hpos
  · rw [hzero, Nat.zero_mul, roundQuotient_zero_left]
    exact Nat.zero_le _
  · have hplaces := shownPlaces_eq v
    have hscaled : |Double.value v| * 10 ^ shownPlaces v ≤ 10 ^ 12 := by
      rcases Nat.eq_zero_or_pos (shownPlaces v) with hnone | hsome
      · rw [hnone, pow_zero, mul_one]
        exact hlt.le
      · calc |Double.value v| * 10 ^ shownPlaces v
            ≤ 10 ^ (leadingExponent v + 1) * 10 ^ shownPlaces v := by
              gcongr
              exact (lt_zpow_leadingExponent hv hpos).le
          _ = 10 ^ (leadingExponent v + 1 + shownPlaces v) := by
              rw [zpow_add₀ (by norm_num) _ (shownPlaces v : Int), zpow_natCast]
          _ ≤ 10 ^ (12 : Int) := zpow_le_zpow_right₀ (by norm_num) (by omega)
          _ = 10 ^ 12 := rfl
    exact roundQuotient_units_le hv (by exact_mod_cast hscaled)

/-- From `10 ^ 12` on a number has no decimals. -/
theorem shownPlaces_of_le (hv : v.isFinite) (hle : 10 ^ 12 ≤ |Double.value v|) :
    shownPlaces v = 0 := by
  have hpos : 0 < Double.units v := by
    refine Nat.pos_of_ne_zero fun hzero => ?_
    rw [(Double.units_eq_zero_iff hv).1 hzero, abs_zero] at hle
    linarith
  have hplaces := shownPlaces_eq v
  have hlead : (12 : Int) < leadingExponent v + 1 := by
    rw [← zpow_lt_zpow_iff_right₀ (show (1 : ℚ) < 10 by norm_num)]
    exact hle.trans_lt (lt_zpow_leadingExponent hv hpos)
  omega

/-- **Exactly which numbers are shown with at most twelve significant digits:** the ones below
`10 ^ 12`, and of the others those whose nearest whole number has nothing but zeros behind its first
twelve digits. -/
theorem displayText_significant_iff (hv : v.isFinite) :
    (significantDigits (displayText v).toList).length ≤ 12 ↔
      |Double.value v| < 10 ^ 12 ∨
        10 ^ ((digits (nearestWhole v)).length - 12) ∣ nearestWhole v := by
  rw [displayText_eq hv, String.toList_ofList, roundedTo, significantDigits_text_ofQuotient]
  rcases lt_or_ge |Double.value v| (10 ^ 12) with hlt | hge
  · refine iff_of_true ?_ (.inl hlt)
    rw [length_significantDigits_digits_le_iff]
    rcases (roundQuotient_le_of_lt hv hlt).lt_or_eq with hless | hcarry
    · rw [Nat.sub_eq_zero_of_le ((length_digits_le_iff (by decide)).2 hless)]
      exact one_dvd _
    · -- a digit more, and all but the first are zeros
      rw [hcarry, length_digits_of_pos (le_refl _) (by decide)]
      exact dvd_mul_left 10 (10 ^ 11)
  · rw [shownPlaces_of_le hv hge, length_significantDigits_digits_le_iff, tenPow_eq, pow_zero,
      Nat.mul_one, ← nearestWhole]
    exact (or_iff_right hge.not_gt).symm

end Number

/-- A million and a third is shown with its first twelve digits. -/
theorem displayText_significant_iff_third :
    let v : Float := 1000000 + 1 / 3
    v.isFinite ∧ displayText v = "1000000.33333" ∧
      ((significantDigits (displayText v).toList).length ≤ 12 ↔
        |Double.value v| < 10 ^ 12 ∨
          10 ^ ((digits (nearestWhole v)).length - 12) ∣ nearestWhole v) := by
  intro v
  obtain ⟨hv, htext⟩ : v.isFinite = true ∧ displayText v = "1000000.33333" := by
    decide +kernel
  exact ⟨hv, htext, displayText_significant_iff hv⟩

/-- The double nearest to `10 ^ 23` is shown with twenty-three significant digits. -/
theorem displayText_many_significant :
    let v := Float.ofBits 0x44b52d02c7e14af6
    v.isFinite ∧ displayText v = "99999999999999991611392" ∧
      (significantDigits (displayText v).toList).length = 23 ∧
      ¬ (significantDigits (displayText v).toList).length ≤ 12 := by
  intro v
  obtain ⟨hv, htext⟩ : v.isFinite = true ∧ displayText v = "99999999999999991611392" := by
    decide +kernel
  have hlength : (significantDigits (displayText v).toList).length = 23 := by
    rw [htext]
    decide
  refine ⟨hv, htext, hlength, ?_⟩
  omega

end Calculator
