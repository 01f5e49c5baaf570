/-
**The shape of number texts.**

The text of a number goes back into the entry, so an expression has to be able to hold it.  Written
in positional form a number is a numeral, digits with at most one point, and the sign in front of it
is the minus sign of expressions.  Nothing is said here about which number the text writes.

Main results

* `Calculator.isNumeral_plainText` — the positional text of a decimal fraction is a numeral;
* `Calculator.entryText_of_isFinite` — the entry text of a finite number is a numeral, with a minus
  sign in front at most if the number is less than zero.
-/

import Calculator.Number.Text
import Calculator.Proofs.DoubleSign
import Calculator.Proofs.Scanning

set_option autoImplicit false

namespace Calculator

/-! ### Positional text -/

section PositionalText

variable {c : Char}

theorem mem_of_mem_dropTrailingZeros {cs : List Char} (h : c ∈ dropTrailingZeros cs) : c ∈ cs := by
  rw [dropTrailingZeros, List.mem_reverse] at h
  exact List.mem_reverse.1 ((List.dropWhile_suffix _).subset h)

theorem isDigit_of_mem_fractionDigits {q places : Nat} (h : c ∈ fractionDigits q places) :
    c.isDigit := by
  simp only [fractionDigits] at h
  split at h
  · simp at h
  · rcases List.mem_append.1 h with h | h
    · rw [List.eq_of_mem_replicate h]
      rfl
    · exact isDigit_of_mem_digits h

/-- The positional text of a decimal fraction is a numeral. -/
theorem isNumeral_plainText (q places : Nat) : IsNumeral (plainText q places) := by
  have hwhole : ∀ c ∈ digits (q / tenPow places), c.isDigit := fun c => isDigit_of_mem_digits
  simp only [plainText]
  split
  · rw [List.append_nil]
    exact isNumeral_of_digits (digits_ne_nil _) hwhole
  · exact isNumeral_of_fraction (List.append_ne_nil_of_left_ne_nil (digits_ne_nil _) _)
      (List.forall_mem_append.2 ⟨hwhole, fun c hc =>
        isDigit_of_mem_fractionDigits (mem_of_mem_dropTrailingZeros hc)⟩)

theorem Decimal.isNumeral_text (d : Decimal) : IsNumeral d.text := by
  unfold Decimal.text
  split
  · exact isNumeral_plainText _ _
  · exact isNumeral_plainText _ _

end PositionalText

/-! ### Signs -/

/-- Only a negative number has a sign written. -/
theorem signedText_eq_or (negative : Bool) (cs : List Char) :
    signedText negative cs = cs ∨ negative = true ∧ signedText negative cs = '-' :: cs := by
  unfold signedText
  split
  · rename_i h
    exact .inr ⟨(Bool.and_eq_true_iff.1 h).1, rfl⟩
  · exact .inl rfl

/-- **The entry text of a finite number is a numeral**, with a minus sign in front at most if the
number is less than zero. -/
theorem entryText_of_isFinite {v : Float} (hv : v.isFinite) :
    ∃ cs, IsNumeral cs ∧
      ((entryText v).toList = cs ∨ v < 0 ∧ (entryText v).toList = '-' :: cs) := by
  unfold entryText
  cases hzero : v == 0 with
  | true =>
      rw [if_pos rfl]
      have hdigit : ∀ c ∈ ['0'], c.isDigit := by
        intro c hc
        rw [List.mem_singleton.1 hc]
        rfl
      exact ⟨['0'], isNumeral_of_digits (List.cons_ne_nil _ _) hdigit, .inl rfl⟩
  | false =>
      have htext := Decimal.isNumeral_text (shortestDecimal .upward (Double.units v))
      refine ⟨_, htext, ?_⟩
      simp only [hv, Bool.not_true, Bool.false_eq_true, if_false, String.toList_ofList]
      rcases signedText_eq_or (Double.isNegative v)
        (shortestDecimal .upward (Double.units v)).text with hplain | ⟨hnegative, hminus⟩
      · exact .inl hplain
      · have hlt : v < 0 :=
          (Double.lt_zero_iff_isNegative (Double.isNaN_of_isFinite hv) hzero).2 hnegative
        exact .inr ⟨hlt, hminus⟩

end Calculator
