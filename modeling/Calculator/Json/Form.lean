/-
**Values of the wrong form.**

A value that is well formed but not of the form asked for is reported by its kind: a word is named,
a number and a string are quoted, a list and an object are only mentioned.  Characters of a quoted
string that would not show, or not on their own, are spelt out.

Main definitions

* `Calculator.Json.spelt` — a text in quotes, with such characters spelt out;
* `Calculator.Json.wrongForm` — the report on the value in front of a text.

Main results

* `Calculator.Json.isHidden_of_mem_spelt` — every character of a text in quotes shows;
* `Calculator.Json.le_of_mem_spelt` — none of them ends the line, or controls anything else.
-/

import Calculator.CodePoints.Hidden
import Calculator.Json.Report
import Calculator.Json.Skip

set_option autoImplicit false

namespace Calculator.Json

/-- A character within a quoted text. -/
def speltChar (c : Char) : List Char :=
  if c = '"' then ['\\', '"']
  else if c = '\\' then ['\\', '\\']
  else if c = '\n' then ['\\', 'n']
  else if c = '\r' then ['\\', 'r']
  else if c = '\t' then ['\\', 't']
  else if c = Char.ofNat 0 then ['\\', '0']
  else if isHidden c then ['\\', 'u', '{'] ++ Nat.toDigits 16 c.toNat ++ ['}']
  else [c]

/-- A text in quotes. -/
def spelt (cs : List Char) : List Char := '"' :: cs.flatMap speltChar ++ ['"']

/-- A hexadecimal digit is printable. -/
theorem isPrintable_of_mem_toDigits {n : Nat} {c : Char} (h : c ∈ Nat.toDigits 16 n) :
    isPrintable c := by
  have hdigit : ∀ d : Fin 16, isPrintable (Nat.digitChar d) := by decide
  induction n using Nat.strongRecOn with
  | _ n ih =>
      rw [Nat.toDigits_eq_if (by decide)] at h
      split at h
      · rename_i hlt
        rw [List.mem_singleton.1 h]
        exact hdigit ⟨n, hlt⟩
      · rcases List.mem_append.1 h with h | h
        · exact ih (n / 16) (by omega) h
        · rw [List.mem_singleton.1 h]
          exact hdigit ⟨n % 16, Nat.mod_lt n (by decide)⟩

/-- A character is spelt out in printable ones, unless it shows itself. -/
theorem speltChar_cases (c : Char) :
    speltChar c = [c] ∧ isHidden c = false ∨ ∀ d ∈ speltChar c, isPrintable d := by
  have hescape {letter : Char} (h : isPrintable letter) : ∀ d ∈ ['\\', letter], isPrintable d := by
    intro d hd
    rcases List.mem_cons.1 hd with rfl | hd
    · rfl
    · exact List.mem_singleton.1 hd ▸ h
  unfold speltChar
  split
  · exact .inr (hescape rfl)
  split
  · exact .inr (hescape rfl)
  split
  · exact .inr (hescape rfl)
  split
  · exact .inr (hescape rfl)
  split
  · exact .inr (hescape rfl)
  split
  · exact .inr (hescape rfl)
  split
  · have hopening : ['\\', 'u', '{'].all isPrintable := by decide
    refine .inr fun d hd => ?_
    rcases List.mem_append.1 hd with hd | hd
    · rcases List.mem_append.1 hd with hd | hd
      · exact List.all_eq_true.1 hopening d hd
      · exact isPrintable_of_mem_toDigits hd
    · exact List.mem_singleton.1 hd ▸ rfl
  · exact .inl ⟨rfl, Bool.eq_false_iff.2 ‹_›⟩

/-- Every character of a text in quotes shows. -/
theorem isHidden_of_mem_spelt {cs : List Char} {d : Char} (h : d ∈ spelt cs) :
    isHidden d = false := by
  have hquote : isHidden '"' = false := isHidden_of_isPrintable rfl
  rcases List.mem_append.1 h with h | h
  · rcases List.mem_cons.1 h with rfl | h
    · exact hquote
    · obtain ⟨c, -, hd⟩ := List.mem_flatMap.1 h
      rcases speltChar_cases c with ⟨hself, hc⟩ | hprintable
      · rw [hself] at hd
        exact List.mem_singleton.1 hd ▸ hc
      · exact isHidden_of_isPrintable (hprintable d hd)
  · exact List.mem_singleton.1 h ▸ hquote

/-- A text in quotes stays on one line. -/
theorem le_of_mem_spelt {cs : List Char} {d : Char} (h : d ∈ spelt cs) : 0x20 ≤ d.toNat := by
  refine Nat.le_of_not_lt fun hlt => ?_
  have hshows := isHidden_of_mem_spelt h
  rw [isHidden_of_lt hlt] at hshows
  cases hshows

/-- Stops at a value of a kind where a form was expected. -/
def unexpected {α : Type} (found expected : String) (rest : List Char) : Except Stop α :=
  stop (.form ("invalid type: " ++ found ++ ", expected " ++ expected)) rest

/-- Stops at the value in front of a text, which is not of the expected form. -/
def wrongForm {α : Type} (expected : String) (cs : List Char) : Except Stop α :=
  match cs with
  | 'n' :: r => do
      let (_, r) ← readName ['u', 'l', 'l'] r
      unexpected "null" expected r
  | 't' :: r => do
      let (_, r) ← readName ['r', 'u', 'e'] r
      unexpected "boolean `true`" expected r
  | 'f' :: r => do
      let (_, r) ← readName ['a', 'l', 's', 'e'] r
      unexpected "boolean `false`" expected r
  | '-' :: r => do
      let (n, r) ← readNumber false r
      unexpected n.report expected r
  | '"' :: r => do
      let (s, r) ← readString r
      unexpected ("string " ++ String.ofList (spelt s)) expected r
  | '[' :: _ => unexpected "sequence" expected cs
  | '{' :: _ => unexpected "map" expected cs
  | c :: _ =>
      if c.isDigit then do
        let (n, r) ← readNumber true cs
        unexpected n.report expected r
      else stopAtNext .expectedValue cs
  | [] => stopAtNext .expectedValue cs

end Calculator.Json
