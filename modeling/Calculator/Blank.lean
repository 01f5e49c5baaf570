/-
**Blank characters.**

Spacing is free between the symbols of an expression, and it counts for nothing at the two ends of
the text that is calculated.  What counts as spacing is the Unicode property `White_Space`, held
here as a table of ranges of code points, so that a no-break space typed by accident is skipped
like any other.

Main definitions

* `Calculator.isBlank` — membership in `White_Space`;
* `Calculator.trimBlanks`, `Calculator.trim` — a text without the blanks at its two ends.

Main results

* `Calculator.isBlank_of_isWhitespace` — every ASCII space character is blank;
* `Calculator.dropBlanks_append_blank` — dropping leading blanks ignores blanks put in front.
-/

import Calculator.CodePoints

set_option autoImplicit false

namespace Calculator

/-! ### The table -/

/-- The code points with the Unicode property `White_Space`. -/
def CodePoints.blank : CodePoints :=
  [(0x09, 0x0D), (0x20, 0x20), (0x85, 0x85), (0xA0, 0xA0), (0x1680, 0x1680), (0x2000, 0x200A),
   (0x2028, 0x2029), (0x202F, 0x202F), (0x205F, 0x205F), (0x3000, 0x3000)]

/-- Whether a character is blank. -/
def isBlank (c : Char) : Bool := CodePoints.blank.has c

/-- Every ASCII space character is blank. -/
theorem isBlank_of_isWhitespace {c : Char} (h : c.isWhitespace) : isBlank c := by
  simp only [Char.isWhitespace, Bool.or_eq_true, decide_eq_true_eq] at h
  rcases h with ((rfl | rfl) | rfl) | rfl <;> decide

/-! ### Trimming -/

/-- A text without the blanks in front of it. -/
def dropBlanks (cs : List Char) : List Char := cs.dropWhile isBlank

/-- Dropping leading blanks ignores a blank put in front. -/
theorem dropBlanks_cons_blank {c : Char} (h : isBlank c) (cs : List Char) :
    dropBlanks (c :: cs) = dropBlanks cs := by
  simp [dropBlanks, List.dropWhile, h]

/-- Dropping leading blanks leaves a text alone that starts with something else. -/
theorem dropBlanks_cons {c : Char} (h : isBlank c = false) (cs : List Char) :
    dropBlanks (c :: cs) = c :: cs := by
  simp [dropBlanks, List.dropWhile, h]

/-- Dropping leading blanks ignores blanks put in front. -/
theorem dropBlanks_append_blank {bs : List Char} (h : ∀ b ∈ bs, isBlank b) (cs : List Char) :
    dropBlanks (bs ++ cs) = dropBlanks cs := by
  induction bs with
  | nil => rfl
  | cons b bs ih =>
      rw [List.cons_append, dropBlanks_cons_blank (h b (by simp))]
      exact ih fun x hx => h x (by simp [hx])

/-- Dropping leading blanks never lengthens a text. -/
theorem length_dropBlanks_le (cs : List Char) : (dropBlanks cs).length ≤ cs.length :=
  (List.dropWhile_suffix isBlank).length_le

/-- A text without the blanks at its two ends. -/
def trimBlanks (cs : List Char) : List Char :=
  (dropBlanks (dropBlanks cs).reverse).reverse

/-- A text without the blanks at its two ends. -/
def trim (s : String) : String := String.ofList (trimBlanks s.toList)

@[simp] theorem toList_trim (s : String) : (trim s).toList = trimBlanks s.toList := by
  simp [trim]

end Calculator
