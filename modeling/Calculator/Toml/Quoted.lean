/-
**Strings in TOML.**

A basic string stands between double quotes and has escapes, a literal string stands between single
quotes and has none.  Tripled quotes enclose a string that may run over several lines; a line break
right after the opening quotes does not belong to it, and in a basic one a backslash at the end of
a line swallows all blanks and line breaks up to the next character.  Control characters other than
the tabulator must be escaped.

Main definitions

* `Calculator.Toml.readQuoted?` — a string on one line, after its opening quote;
* `Calculator.Toml.readLines?` — a string that may run over several lines, after its opening quotes.
-/

import Calculator.Toml.Scalar

set_option autoImplicit false

namespace Calculator.Toml

/-! ### Characters -/

/-- The two characters that separate the parts of a line. -/
def isGap (c : Char) : Bool := c == ' ' || c == '\t'

/-- A text without the gap in front of it. -/
def skipGap (cs : List Char) : List Char := cs.dropWhile isGap

/-- Whether a control character must be escaped. -/
def isControl (c : Char) : Bool := (decide (c.toNat < 0x20) && c != '\t') || c == '\x7f'

/-- What follows a line break. -/
def afterBreak? : List Char → Option (List Char)
  | '\n' :: cs => some cs
  | '\r' :: '\n' :: cs => some cs
  | _ => none

/-- The character with a code given by so many digits to base sixteen. -/
def readCode? (count : Nat) (cs : List Char) : Option (Char × List Char) :=
  let ds := cs.take count
  let n := ofBase 16 ds
  if ds.length = count ∧ ds.all (fun c => (hexValue? c).isSome) ∧ n.isValidChar then
    some (Char.ofNat n, cs.drop count)
  else none

/-- An escaped character, after the backslash. -/
def readEscape? : List Char → Option (Char × List Char)
  | 'b' :: cs => some ('\x08', cs)
  | 't' :: cs => some ('\t', cs)
  | 'n' :: cs => some ('\n', cs)
  | 'f' :: cs => some ('\x0c', cs)
  | 'r' :: cs => some ('\r', cs)
  | 'e' :: cs => some ('\x1b', cs)
  | '"' :: cs => some ('"', cs)
  | '\\' :: cs => some ('\\', cs)
  | 'x' :: cs => readCode? 2 cs
  | 'u' :: cs => readCode? 4 cs
  | 'U' :: cs => readCode? 8 cs
  | _ => none

/-! ### One line

Every step takes at least one character off, so as many steps as the text has characters, and one
more to notice its end, are enough. -/

/-- A string on one line after its opening quote, in a number of steps. -/
def readQuotedIn (quote : Char) : Nat → List Char → Option (List Char × List Char)
  | 0, _ => none
  | _ + 1, [] => none
  | steps + 1, c :: cs =>
      if c = quote then some ([], cs)
      else if c = '\\' ∧ quote = '"' then do
        let (d, cs) ← readEscape? cs
        let (ds, cs) ← readQuotedIn quote steps cs
        return (d :: ds, cs)
      else if isControl c then none
      else do
        let (ds, cs) ← readQuotedIn quote steps cs
        return (c :: ds, cs)

/-- A string on one line, after its opening quote. -/
def readQuoted? (quote : Char) (cs : List Char) : Option (List Char × List Char) :=
  readQuotedIn quote (cs.length + 1) cs

/-! ### Several lines -/

/-- A text without the blanks and line breaks in front of it. -/
def skipBreaks : List Char → List Char
  | ' ' :: cs => skipBreaks cs
  | '\t' :: cs => skipBreaks cs
  | '\n' :: cs => skipBreaks cs
  | '\r' :: '\n' :: cs => skipBreaks cs
  | cs => cs

/-- After a backslash that ends its line: what follows the blanks and line breaks. -/
def afterLineEnd? (cs : List Char) : Option (List Char) :=
  (afterBreak? (skipGap cs)).map skipBreaks

/-- The quotes that end a string of several lines: three of them, and up to two more in front that
belong to the string. -/
def closing? (quote : Char) (cs : List Char) : Option (List Char × List Char) :=
  let run := cs.takeWhile (· == quote)
  if 3 ≤ run.length ∧ run.length ≤ 5 then some (run.drop 3, cs.drop run.length)
  else if 5 < run.length then some ([quote, quote], cs.drop 5)
  else none

/-- A string of several lines after its opening quotes, in a number of steps. -/
def readLinesIn (quote : Char) : Nat → List Char → Option (List Char × List Char)
  | 0, _ => none
  | _ + 1, [] => none
  | steps + 1, c :: cs =>
      match closing? quote (c :: cs) with
      | some found => some found
      | none =>
          if c = '\\' ∧ quote = '"' then
            match afterLineEnd? cs with
            | some cs => readLinesIn quote steps cs
            | none => do
                let (d, cs) ← readEscape? cs
                let (ds, cs) ← readLinesIn quote steps cs
                return (d :: ds, cs)
          else if c = '\r' then
            match cs with
            | '\n' :: cs => do
                let (ds, cs) ← readLinesIn quote steps cs
                return ('\r' :: '\n' :: ds, cs)
            | _ => none
          else if isControl c ∧ c ≠ '\n' then none
          else do
            let (ds, cs) ← readLinesIn quote steps cs
            return (c :: ds, cs)

/-- A string that may run over several lines, after its opening quotes. -/
def readLines? (quote : Char) (cs : List Char) : Option (List Char × List Char) :=
  let cs := (afterBreak? cs).getD cs
  readLinesIn quote (cs.length + 1) cs

end Calculator.Toml
