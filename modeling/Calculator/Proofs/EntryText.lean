/-
**The entry text reads back.**

A result that is used again goes back into the entry as text, and a number in the memory is
inserted as text.  Nothing must be lost on the way: for every finite number, the smallest and the
largest ones included, the entry text is a plain one, without an exponent, and its value is the
number itself, bit by bit.  The one exception is the zero with a sign, which is written without it.

Main results

* `Calculator.exists_plainNumber_entryText` — the entry text of a finite number is plain;
* `Calculator.entryText_reads_back` — **the entry text is scanned to one number, with a minus sign
  at most, and is worth the number that it was written for**.
-/

import Calculator.Proofs.PlainNumber
import Calculator.Session

set_option autoImplicit false

namespace Calculator

/-- The text of a scaled whole number is the one of a quotient of the same worth. -/
theorem Decimal.exists_text_eq (d : Decimal) :
    ∃ q places, d.text = plainText q places ∧ (q : ℚ) / 10 ^ places = d.value := by
  obtain ⟨significand, exponent⟩ := d
  cases exponent with
  | ofNat k => exact ⟨significand * tenPow k, 0, rfl, by simp [value, tenPow_eq]⟩
  | negSucc k =>
      refine ⟨significand, k + 1, rfl, ?_⟩
      rw [value, zpow_negSucc, div_eq_mul_inv]

section Number

variable {v : Float}

/-- The entry text of a finite number is plain, and the expression that it is read as is worth the
number. -/
theorem exists_plainNumber_entryText (hv : v.isFinite) :
    ∃ p : PlainNumber, entryText v = String.ofList p.text ∧
      p.expr.fold = .ok (if v == 0 then 0 else v) := by
  unfold entryText
  cases hzero : v == 0 with
  | true =>
      let p := PlainNumber.ofQuotient false 0 0
      have hbits : p.decimal.nearestBits = 0 := by
        have hworth : p.decimal.value = (⟨0, 0⟩ : Decimal).value := by
          rw [PlainNumber.value_decimal_ofQuotient, Decimal.value, Nat.cast_zero, zero_div,
            zero_mul]
        rw [Decimal.nearestBits_congr hworth]
        exact Double.nearestBits_eq_zero (by simp)
      refine ⟨p, ?_, ?_⟩
      · rw [PlainNumber.text_ofQuotient_zero]
        rfl
      · rw [p.fold_expr, hbits, Double.ofMagnitudeBits_zero]
        rfl
  | false =>
      let d := shortestDecimal .upward (Double.units v)
      obtain ⟨q, places, htext, hworth⟩ := d.exists_text_eq
      let p := PlainNumber.ofQuotient (Double.isNegative v) q places
      have hbits : p.decimal.nearestBits = Double.magnitudeBits v := by
        calc p.decimal.nearestBits
            = d.nearestBits := Decimal.nearestBits_congr
              ((PlainNumber.value_decimal_ofQuotient _ q places).trans hworth)
          _ = Double.nearestBits (Double.units v) 1 := nearestBits_shortestDecimal _ _
          _ = Double.magnitudeBits v :=
              Double.nearestBits_unitsOfBits (Double.isFinite_iff.1 hv)
      have hsign : p.negative = Double.isNegative v := by
        -- the text is not the one of zero, which is worth zero
        have hne : p.digitsText ≠ ['0'] := by
          intro hdigits
          have hworth : p.decimal.value = (⟨0, 0⟩ : Decimal).value := by
            rw [p.value_decimal_of_zero hdigits, Decimal.value, Nat.cast_zero, zero_mul]
          rw [Decimal.nearestBits_congr hworth] at hbits
          have hnone : Double.magnitudeBits v = 0 :=
            hbits.symm.trans (Double.nearestBits_eq_zero (by simp))
          rw [Double.magnitudeBits_eq_zero_iff.1 hnone] at hzero
          cases hzero
        have hbne : (plainText q places != ['0']) = true := bne_iff_ne.2 hne
        exact (congrArg (Double.isNegative v && ·) hbne).trans (Bool.and_true _)
      refine ⟨p, ?_, ?_⟩
      · simp only [hv, Bool.not_true, Bool.false_eq_true, if_false]
        rw [htext, PlainNumber.signedText_plainText]
      · rw [p.fold_expr, hbits, hsign, if_neg Bool.false_ne_true]
        split
        · rw [Double.neg_ofMagnitudeBits_magnitudeBits ‹_›]
        · rw [Double.ofMagnitudeBits_magnitudeBits (Bool.eq_false_iff.2 ‹_›)]

/-- A text that is read as an expression worth a finite number is worth this number. -/
theorem evaluateText_of_fold {s : String} {e : Expr} (hs : Expr.ofText s = .ok e)
    (he : e.fold = .ok v) (hv : v.isFinite) : evaluateText s = .ok v := by
  refine evaluateText_eq_ok.2 ⟨e, hs, ?_⟩
  simp only [Expr.evaluate, he, hv, if_true]

/-- What is left of a finite number without the sign of zero is finite. -/
theorem isFinite_ite_zero (hv : v.isFinite) : (if v == 0 then 0 else v).isFinite := by
  split
  · rfl
  · exact hv

/-- **The entry text reads back.**  For every finite number it is a plain text, which is scanned to
one number with a minus sign at most, and its value is the same number, bit by bit; only a zero
loses its sign. -/
theorem entryText_reads_back (hv : v.isFinite) :
    ∃ p : PlainNumber, (entryText v).toList = p.text ∧ Token.ofText (entryText v) = .ok p.tokens ∧
      evaluateText (entryText v) = .ok (if v == 0 then 0 else v) := by
  obtain ⟨p, htext, hworth⟩ := exists_plainNumber_entryText hv
  refine ⟨p, ?_, ?_, ?_⟩
  · rw [htext, String.toList_ofList]
  · rw [htext, p.tokenOfText_text]
  · rw [htext]
    exact evaluateText_of_fold p.exprOfText_text hworth (isFinite_ite_zero hv)

/-- A third, less than zero, is written with sixteen digits and reads back. -/
theorem entryText_reads_back_third :
    let v : Float := -1 / 3
    v.isFinite ∧ entryText v = "-0.3333333333333333" ∧
      ∃ p : PlainNumber, (entryText v).toList = p.text ∧ Token.ofText (entryText v) = .ok p.tokens ∧
        evaluateText (entryText v) = .ok (if v == 0 then 0 else v) := by
  intro v
  obtain ⟨hv, htext⟩ : v.isFinite = true ∧ entryText v = "-0.3333333333333333" := by
    decide +kernel
  exact ⟨hv, htext, entryText_reads_back hv⟩

end Number

end Calculator
