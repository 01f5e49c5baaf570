/-
**Where and why reading JSON stops.**

A reader of JSON takes the text apart from the front and hands on what is left.  When it cannot go
on, it stops with a cause and the text left at that point.  Only when the stop is reported is that
text turned into a line and a column, by comparing it with the whole: lines are counted from one,
columns in bytes of UTF-8.

Main definitions

* `Calculator.Json.Cause`, `Calculator.Json.Stop` — why and where;
* `Calculator.Json.Stop.message` — the report.

Main results

* `Calculator.Json.length_skipSpace_le` — skipping space never lengthens a text.
-/

set_option autoImplicit false

namespace Calculator.Json

/-! ### Causes -/

/-- Why reading stops. -/
inductive Cause where
  | endInList
  | endInObject
  | endInString
  | endInValue
  | expectedColon
  | expectedListSeparator
  | expectedObjectSeparator
  | expectedIdentifier
  | expectedValue
  | invalidEscape
  | invalidNumber
  | numberOutOfRange
  | controlCharacter
  | keyNotString
  | loneSurrogate
  | trailingComma
  | trailingCharacters
  | unfinishedSurrogate
  /-- The text is JSON, but not of the form asked for. -/
  | form (description : String)
deriving DecidableEq, Repr

/-- The wording of a cause. -/
def Cause.message : Cause → String
  | .endInList => "EOF while parsing a list"
  | .endInObject => "EOF while parsing an object"
  | .endInString => "EOF while parsing a string"
  | .endInValue => "EOF while parsing a value"
  | .expectedColon => "expected `:`"
  | .expectedListSeparator => "expected `,` or `]`"
  | .expectedObjectSeparator => "expected `,` or `\x7d`"
  | .expectedIdentifier => "expected ident"
  | .expectedValue => "expected value"
  | .invalidEscape => "invalid escape"
  | .invalidNumber => "invalid number"
  | .numberOutOfRange => "number out of range"
  | .controlCharacter => "control character (\\u0000-\\u001F) found while parsing a string"
  | .keyNotString => "key must be a string"
  | .loneSurrogate => "lone leading surrogate in hex escape"
  | .trailingComma => "trailing comma"
  | .trailingCharacters => "trailing characters"
  | .unfinishedSurrogate => "unexpected end of hex escape"
  | .form description => description

/-- Why and where reading stops. -/
structure Stop where
  /-- Why. -/
  cause : Cause
  /-- The text left when reading stops. -/
  rest : List Char
  /-- How many bytes of it the report counts as read. -/
  ahead : Nat := 0
deriving DecidableEq, Repr

/-- A reader takes something off the front of a text, or stops. -/
abbrev Reader (α : Type) := List Char → Except Stop (α × List Char)

/-- Stops here. -/
def stop {α : Type} (cause : Cause) (rest : List Char) : Except Stop α := .error { cause, rest }

/-- Stops at the next byte: it is the one that was not expected. -/
def stopAtNext {α : Type} (cause : Cause) (rest : List Char) : Except Stop α :=
  .error { cause, rest, ahead := if rest.isEmpty then 0 else 1 }

/-! ### Lines and columns -/

/-- The number of bytes of a text in UTF-8. -/
def byteLength : List Char → Nat
  | [] => 0
  | c :: cs => c.utf8Size + byteLength cs

/-- The line and the column reached after one more byte. -/
def afterByte (reached : Nat × Nat) (b : UInt8) : Nat × Nat :=
  if b = 10 then (reached.1 + 1, 0) else (reached.1, reached.2 + 1)

/-- The line and the column reached after some bytes. -/
def lineAndColumn (bytes : List UInt8) : Nat × Nat := bytes.foldl afterByte (1, 0)

/-- The report on reading a text that stops. -/
def Stop.message (s : Stop) (whole : String) : String :=
  let read := byteLength whole.toList - byteLength s.rest + s.ahead
  let (line, column) := lineAndColumn (whole.toUTF8.toList.take read)
  s.cause.message ++ " at line " ++ toString line ++ " column " ++ toString column

/-! ### Space -/

/-- The four characters that JSON allows between its parts. -/
def isSpace (c : Char) : Bool := c == ' ' || c == '\n' || c == '\t' || c == '\r'

/-- A text without the space in front of it. -/
def skipSpace (cs : List Char) : List Char := cs.dropWhile isSpace

theorem length_skipSpace_le (cs : List Char) : (skipSpace cs).length ≤ cs.length :=
  (List.dropWhile_suffix isSpace).length_le

/-! ### Names -/

/-- Takes off the rest of a name. -/
def readName : List Char → Reader Unit
  | [], cs => .ok ((), cs)
  | _ :: _, [] => stop .endInValue []
  | expected :: name, c :: cs =>
      if c = expected then readName name cs else stopAtNext .expectedIdentifier (c :: cs)

end Calculator.Json
