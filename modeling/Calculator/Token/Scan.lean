/-
**Scanning a text into tokens.**

The text is taken apart lexeme by lexeme: blanks, single symbols, words, numbers, the square
written `^2`, the constant `π` and the root sign `√`.  Three of them look beyond their own
characters.  `π` is refused right after a letter, digit or underscore, so that `2π` is not read as a
product; `^` must be followed, blanks aside, by a `2` that is not the start of a longer number; and
`√` opens a parenthesis of its own unless one follows.

Main definitions

* `Calculator.Lexeme` — what stands at the front of a text;
* `Calculator.lexeme` — the lexeme that starts with a given character;
* `Calculator.scan`, `Calculator.Token.ofText` — all tokens of a text.

Main results

* `Calculator.scan_cons` — scanning takes off one lexeme and goes on after it.
-/

import Calculator.Blank
import Calculator.Failure
import Calculator.Token

set_option autoImplicit false

namespace Calculator

/-! ### Classes of characters -/

/-- The characters a word is made of: ASCII letters, digits and the underscore. -/
def isWordChar (c : Char) : Bool := c.isAlphanum || c == '_'

/-- The characters a word can start with. -/
def isWordStart (c : Char) : Bool := c.isAlpha || c == '_'

/-- The characters a number is made of. -/
def isNumberChar (c : Char) : Bool := c.isDigit || c == '.'

/-- Whether a text starts with a character of a class. -/
def startsWith (p : Char → Bool) (cs : List Char) : Bool := cs.head?.any p

/-! ### One lexeme -/

/-- What stands at the front of a text: the tokens it spells, none for a blank, and how many
characters it takes after its first. -/
structure Lexeme where
  /-- The tokens spelt. -/
  tokens : List Token
  /-- The number of characters after the first. -/
  extra : Nat
deriving DecidableEq, Repr

/-- The place of the second point in a run of digits and points. -/
def secondPoint? (run : List Char) : Option Nat :=
  let whole := run.takeWhile (· != '.')
  match run.dropWhile (· != '.') with
  | [] => none
  | _ :: rest =>
      let fraction := rest.takeWhile (· != '.')
      if fraction.length < rest.length then some (whole.length + 1 + fraction.length) else none

/-- A maximal run of digits and points is a number if it has a digit and at most one point.  A
second point is at fault itself; without a digit, the first character is. -/
def numberLexeme (c : Char) (cs : List Char) : Except LexicalError Lexeme :=
  let run := c :: cs.takeWhile isNumberChar
  match secondPoint? run with
  | some i => .error ⟨i, '.'⟩
  | none =>
      if run.any Char.isDigit then .ok ⟨[.number (String.ofList run)], run.length - 1⟩
      else .error ⟨0, c⟩

/-- A maximal run of word characters must be a name. -/
def wordLexeme (c : Char) (cs : List Char) : Except LexicalError Lexeme :=
  let word := c :: cs.takeWhile isWordChar
  match Token.ofWord? word with
  | some t => .ok ⟨[t], word.length - 1⟩
  | none => .error ⟨0, c⟩

/-- After `^`: blanks, then a `2` that no digit or point continues. -/
def powerLexeme (cs : List Char) : Except LexicalError Lexeme :=
  match dropBlanks cs with
  | '2' :: rest =>
      if startsWith isNumberChar rest then .error ⟨0, '^'⟩
      else .ok ⟨[.square], cs.length - rest.length⟩
  | _ => .error ⟨0, '^'⟩

/-- After `√`: the function, and an opening parenthesis unless one follows. -/
def rootLexeme (cs : List Char) : Lexeme :=
  if startsWith (· == '(') (dropBlanks cs) then ⟨[.function .sqrt], 0⟩
  else ⟨[.function .sqrt, .leftParen], 0⟩

/-- The lexeme that starts with `c`, given the character before it and the text after it. -/
def lexeme (before : Option Char) (c : Char) (cs : List Char) : Except LexicalError Lexeme :=
  if isBlank c then .ok ⟨[], 0⟩
  else
    match Token.ofSymbol? c with
    | some t => .ok ⟨[t], 0⟩
    | none =>
        if c = '^' then powerLexeme cs
        else if c = 'π' then
          if before.any isWordChar then .error ⟨0, 'π'⟩ else .ok ⟨[.constant .pi], 0⟩
        else if c = '√' then .ok (rootLexeme cs)
        else if isWordStart c then wordLexeme c cs
        else if isNumberChar c then numberLexeme c cs
        else .error ⟨0, c⟩

/-! ### All lexemes -/

/-- What scanning gives for a text whose first `n` characters spell `ts`, from what it gives for the
rest. -/
def prependTokens (n : Nat) (ts : List Token) :
    Except LexicalError (List Token) → Except LexicalError (List Token)
  | .ok us => .ok (ts ++ us)
  | .error e => .error (e.shift n)

/-- The tokens of a text, given the character before it.  Errors are placed from the start of this
text. -/
def scan (before : Option Char) : List Char → Except LexicalError (List Token)
  | [] => .ok []
  | c :: cs => do
      let x ← lexeme before c cs
      prependTokens (x.extra + 1) x.tokens (scan ((c :: cs)[x.extra]?) (cs.drop x.extra))
termination_by cs => cs.length
decreasing_by simp only [List.length_drop, List.length_cons]; omega

@[simp] theorem scan_nil (before : Option Char) : scan before [] = .ok [] := by
  rw [scan]

/-- Scanning takes off one lexeme and goes on after it. -/
theorem scan_cons (before : Option Char) (c : Char) (cs : List Char) :
    scan before (c :: cs) = lexeme before c cs >>= fun x =>
      prependTokens (x.extra + 1) x.tokens
        (scan ((c :: cs)[x.extra]?) (cs.drop x.extra)) := by
  rw [scan]

/-- The tokens of a text, or the first character that belongs to none. -/
def Token.ofText (s : String) : Except LexicalError (List Token) := scan none s.toList

end Calculator
