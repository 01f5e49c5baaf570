/-
**Characters that do not show on their own.**

A reader of a quoted text cannot tell some characters from nothing, from each other, or from the
character before them.  These are the invisible ones, the combining ones and the unassigned ones.

Main definitions

* `Calculator.CodePoints.invisible` — controls, formatting, spaces, fillers and private characters;
* `Calculator.isHidden` — whether a character does not show on its own.

Main results

* `Calculator.CodePoints.isAscending_invisible` — the table is in order;
* `Calculator.isHidden_of_lt`, `Calculator.isHidden_of_isPrintable` — the characters below the space
  are hidden, those of ASCII from the space on are not.
-/

import Calculator.CodePoints.Combining
import Calculator.CodePoints.Unassigned

set_option autoImplicit false

namespace Calculator

/-- The invisible characters: controls, formatting characters, separators other than the space,
private characters, and the fillers, letters that draw nothing. -/
def CodePoints.invisible : CodePoints :=
  [(0x0, 0x1F), (0x7F, 0xA0), (0xAD, 0xAD), (0x600, 0x605), (0x61C, 0x61C), (0x6DD, 0x6DD),
   (0x70F, 0x70F), (0x890, 0x891), (0x8E2, 0x8E2), (0x115F, 0x1160), (0x1680, 0x1680),
   (0x180E, 0x180E), (0x2000, 0x200B), (0x200D, 0x200F), (0x2028, 0x202F), (0x205F, 0x2064),
   (0x2066, 0x206F), (0x3000, 0x3000), (0x3164, 0x3164), (0xE000, 0xF8FF), (0xFEFF, 0xFEFF),
   (0xFFA0, 0xFFA0), (0xFFF9, 0xFFFB), (0x110BD, 0x110BD), (0x110CD, 0x110CD), (0x13430, 0x1343F),
   (0x1BCA0, 0x1BCA3), (0x1D173, 0x1D17A), (0xE0001, 0xE0001), (0xF0000, 0xFFFFD),
   (0x100000, 0x10FFFD)]

theorem CodePoints.isAscending_invisible : CodePoints.invisible.isAscending := by decide +kernel

/-- Whether a character does not show on its own. -/
def isHidden (c : Char) : Bool :=
  CodePoints.invisible.has c || CodePoints.combining.has c || CodePoints.unassigned.has c

/-- The characters below the space are hidden. -/
theorem isHidden_of_lt {c : Char} (h : c.toNat < 0x20) : isHidden c := by
  have : CodePoints.invisible.has c := by
    simp only [CodePoints.has, CodePoints.invisible, List.any_cons, Bool.or_eq_true,
      Bool.and_eq_true, decide_eq_true_eq]
    omega
  simp [isHidden, this]

/-- The characters of ASCII from the space to the tilde. -/
def isPrintable (c : Char) : Bool := decide (0x20 ≤ c.toNat) && decide (c.toNat ≤ 0x7E)

/-- A printable character shows on its own. -/
theorem isHidden_of_isPrintable {c : Char} (h : isPrintable c) : isHidden c = false := by
  obtain ⟨hinvisible, hcombining, hunassigned⟩ :
      CodePoints.invisible.isClearOf 0x20 0x7E ∧ CodePoints.combining.isClearOf 0x20 0x7E ∧
        CodePoints.unassigned.isClearOf 0x20 0x7E := by
    decide +kernel
  simp only [isPrintable, Bool.and_eq_true, decide_eq_true_eq] at h
  simp only [isHidden, CodePoints.has_eq_false_of_isClearOf hinvisible h.1 h.2,
    CodePoints.has_eq_false_of_isClearOf hcombining h.1 h.2,
    CodePoints.has_eq_false_of_isClearOf hunassigned h.1 h.2, Bool.or_self]

end Calculator
