/-
**The question reads back.**

The text that the service is asked for travels in a string.  Quotes, backslashes and control
characters are escaped there, everything else stands for itself, so the string denotes the text,
whatever its characters are.  The question as a whole is an object with one member, and a service
that reads it by the grammar finds the text that was meant and nothing beside it.

Main results

* `Calculator.Json.escaped_cases` — a character stands for itself, or its escape denotes it;
* `Calculator.Json.readString_quote` — a text that is quoted reads back;
* `Calculator.Service.requestBody_holds_expression` — **the question is an object that holds the
  text that is asked for, and nothing else**.
-/

import Calculator.Proofs.JsonValues
import Calculator.Service

set_option autoImplicit false

namespace Calculator

/-! ### Strings -/

namespace Json

variable {c : Char}

/-- Two digits are enough for the code of a control character. -/
theorem isHex_of_control {n : Nat} (h : n < 0x20) :
    IsHex ['0', '0', hexDigit (n / 16), hexDigit (n % 16)] n := by
  have hcodes : ∀ n : Fin 0x20,
      hexNumber? ['0', '0', hexDigit (n.val / 16), hexDigit (n.val % 16)] = some n.val := by
    decide
  exact ⟨rfl, hcodes ⟨n, h⟩⟩

/-- The escape of a control character denotes it. -/
theorem escapeDenotes_control (h : c.toNat < 0x20) :
    EscapeDenotes ['u', '0', '0', hexDigit (c.toNat / 16), hexDigit (c.toNat % 16)] c := by
  have hleading : isLeading c.toNat = false := by
    rw [isLeading, decide_eq_false (by omega), Bool.false_and]
  have htrailing : isTrailing c.toNat = false := by
    rw [isTrailing, decide_eq_false (by omega), Bool.false_and]
  have hdenotes := EscapeDenotes.unicode (isHex_of_control h) hleading htrailing
  rwa [Char.ofNat_toNat] at hdenotes

/-- A character between quotes stands for itself, or an escape that denotes it stands there. -/
theorem escaped_cases (c : Char) :
    IsPlain c ∧ escaped c = [c] ∨ ∃ es, EscapeDenotes es c ∧ escaped c = '\\' :: es := by
  have hshort {letter d : Char} (hescape : shortEscape? letter = some d) (hc : c = d) :
      ∃ es, EscapeDenotes es c ∧ ['\\', letter] = '\\' :: es :=
    ⟨[letter], .short (hc ▸ hescape), rfl⟩
  unfold escaped
  split
  · exact .inr (hshort rfl ‹_›)
  rename_i hquote
  split
  · exact .inr (hshort rfl ‹_›)
  rename_i hbackslash
  split
  · exact .inr (hshort rfl ‹_›)
  split
  · exact .inr (hshort rfl ‹_›)
  split
  · exact .inr (hshort rfl ‹_›)
  split
  · exact .inr (hshort rfl ‹_›)
  split
  · exact .inr (hshort rfl ‹_›)
  split
  · rename_i hcontrol
    exact .inr ⟨_, escapeDenotes_control hcontrol, rfl⟩
  · rename_i hcontrol
    exact .inl ⟨isPlain_of_ne hquote hbackslash hcontrol, rfl⟩

/-- What stands between the quotes of a text denotes it. -/
theorem denotes_escaped (cs : List Char) : Denotes (cs.flatMap escaped) cs := by
  induction cs with
  | nil => exact .nil
  | cons c cs ih =>
      rw [List.flatMap_cons]
      rcases escaped_cases c with ⟨hplain, htext⟩ | ⟨es, hes, htext⟩
      · rw [htext]
        exact .plain hplain ih
      · rw [htext]
        exact .escape hes ih

/-- A text that is quoted reads back. -/
theorem readString_quote (cs r : List Char) :
    ∃ rest, quote cs ++ r = '"' :: rest ∧ readString rest = .ok (cs, r) := by
  refine ⟨cs.flatMap escaped ++ '"' :: r, by simp [quote], ?_⟩
  exact readString_eq_ok.2 ⟨_, denotes_escaped cs, rfl⟩

end Json

/-! ### The question -/

namespace Service

open Json

/-- The question is an object with one member: its name denotes `expression`, and its value is a
string that denotes the text that is asked for. -/
theorem requestBody_holds_expression (canonical : String) :
    ∃ name content, TextOf (.object [(name, .string content)]) (requestBody canonical).toList ∧
      Denotes name "expression".toList ∧ Denotes content canonical.toList := by
  have hname := denotes_escaped "expression".toList
  have hcontent := denotes_escaped canonical.toList
  refine ⟨_, _, ?_, hname, hcontent⟩
  have htext : (requestBody canonical).toList =
      '{' :: '"' :: ("expression".toList.flatMap escaped ++ '"' :: ':' ::
        '"' :: (canonical.toList.flatMap escaped ++ '"' :: ['}'])) := by
    simp [requestBody, quote]
  have hmember : WrittenMember _ _ ['}'] :=
    .mk (.refl _) (isContent_of_denotes hname) (.refl _) (.refl _)
      (.string (isContent_of_denotes hcontent) _)
  rw [htext]
  exact ⟨_, [], .refl _, .object (.last hmember (.refl _)), .refl _⟩

end Service

end Calculator
