/-
**Erasing in the entry field.**

The erase key takes back one symbol.  The names that the keypad inserts as a whole, with their
opening parenthesis, are one symbol; anything else is erased character by character.  Spaces at the
end do not count as symbols and go along.

Main definitions

* `Calculator.erasedAsOne` — the texts that are erased as one symbol;
* `Calculator.eraseLastSymbol` — an entry without its last symbol.

Main results

* `Calculator.dropTrailingSpaces_isPrefix` — erasing takes only from the end.
-/

set_option autoImplicit false

namespace Calculator

/-- The texts that are erased as one symbol; the first that ends the entry is taken. -/
def erasedAsOne : List (List Char) :=
  [['s', 'q', 'r', 't', '('], ['s', 'i', 'n', '('], ['c', 'o', 's', '('], ['t', 'a', 'n', '('],
   ['√', '('], ['p', 'i'], ['√']]

/-- A text without the spaces at its end. -/
def dropTrailingSpaces (cs : List Char) : List Char := (cs.reverse.dropWhile (· == ' ')).reverse

/-- A text without the symbol that ends it. -/
def dropLastSymbol (cs : List Char) : List Char :=
  match erasedAsOne.find? (·.isSuffixOf cs) with
  | some symbol => cs.take (cs.length - symbol.length)
  | none => cs.dropLast

/-- An entry without its last symbol and the spaces around it. -/
def eraseLastSymbol (cs : List Char) : List Char :=
  dropTrailingSpaces (dropLastSymbol (dropTrailingSpaces cs))

theorem dropTrailingSpaces_isPrefix (cs : List Char) : dropTrailingSpaces cs <+: cs := by
  rw [← List.reverse_suffix]
  simpa [dropTrailingSpaces] using List.dropWhile_suffix (· == ' ')

end Calculator
