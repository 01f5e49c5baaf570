/-
**Strings in JSON.**

A string stands between quotes; a quote, a backslash and the control characters are escaped.
Characters beyond the first plane are escaped as two surrogates.  A string that is skipped is held
to a weaker rule than one that is read: its escapes must be well formed, but its surrogates need
not pair up.

Main definitions

* `Calculator.Json.quote` — a text as a string;
* `Calculator.Json.readString` — a string, after its opening quote;
* `Calculator.Json.skipString` — the same without its value.
-/

import Calculator.Json.Stop

set_option autoImplicit false

namespace Calculator.Json

/-! ### Writing -/

/-- A hexadecimal digit, in lower case. -/
def hexDigit (n : Nat) : Char := Nat.digitChar n

/-- A character as it stands in a string. -/
def escaped (c : Char) : List Char :=
  if c = '"' then ['\\', '"']
  else if c = '\\' then ['\\', '\\']
  else if c = '\n' then ['\\', 'n']
  else if c = '\r' then ['\\', 'r']
  else if c = '\t' then ['\\', 't']
  else if c = '\x08' then ['\\', 'b']
  else if c = '\x0c' then ['\\', 'f']
  else if c.toNat < 0x20 then
    ['\\', 'u', '0', '0', hexDigit (c.toNat / 16), hexDigit (c.toNat % 16)]
  else [c]

/-- A text as a string, quotes included. -/
def quote (cs : List Char) : List Char := '"' :: cs.flatMap escaped ++ ['"']

/-! ### Escapes -/

/-- The value of a hexadecimal digit in either case. -/
def hexValue? (c : Char) : Option Nat :=
  if c.isDigit then some (c.toNat - '0'.toNat)
  else if 'a' ≤ c ∧ c ≤ 'f' then some (c.toNat - 'a'.toNat + 10)
  else if 'A' ≤ c ∧ c ≤ 'F' then some (c.toNat - 'A'.toNat + 10)
  else none

/-- The number written by hexadecimal digits. -/
def hexNumber? (cs : List Char) : Option Nat :=
  cs.foldl (fun n c => do return 16 * (← n) + (← hexValue? c)) (some 0)

/-- The four hexadecimal digits of an escape. -/
def readHex (cs : List Char) : Except Stop (Nat × List Char) :=
  if byteLength cs < 4 then stop .endInString []
  else
    match hexNumber? (cs.take 4) with
    | some n => .ok (n, cs.drop 4)
    | none => .error { cause := .invalidEscape, rest := cs, ahead := 4 }

/-- The first half of a pair of surrogates. -/
def isLeading (n : Nat) : Bool := decide (0xD800 ≤ n) && decide (n ≤ 0xDBFF)

/-- The second half of a pair of surrogates. -/
def isTrailing (n : Nat) : Bool := decide (0xDC00 ≤ n) && decide (n ≤ 0xDFFF)

/-- A character that must follow a leading surrogate. -/
def expectAfterSurrogate (c : Char) : List Char → Except Stop (List Char)
  | [] => stop .endInString []
  | d :: cs => if d = c then .ok cs else stopAtNext .unfinishedSurrogate (d :: cs)

/-- The character escaped by `\u`, after these two characters. -/
def readUnicodeEscape : Reader Char := fun cs => do
  let (n, cs) ← readHex cs
  if isTrailing n then stop .loneSurrogate cs
  else if isLeading n then
    let cs ← expectAfterSurrogate '\\' cs
    let cs ← expectAfterSurrogate 'u' cs
    let (m, cs) ← readHex cs
    if isTrailing m then
      return (Char.ofNat (0x10000 + (n - 0xD800) * 0x400 + (m - 0xDC00)), cs)
    else stop .loneSurrogate cs
  else return (Char.ofNat n, cs)

/-- The character that a single letter escapes. -/
def shortEscape? : Char → Option Char
  | '"' => some '"'
  | '\\' => some '\\'
  | '/' => some '/'
  | 'b' => some '\x08'
  | 'f' => some '\x0c'
  | 'n' => some '\n'
  | 'r' => some '\r'
  | 't' => some '\t'
  | _ => none

/-- An escaped character, after the backslash. -/
def readEscape : Reader Char
  | [] => stop .endInString []
  | 'u' :: cs => readUnicodeEscape cs
  | c :: cs =>
      match shortEscape? c with
      | some d => .ok (d, cs)
      | none => stopAtNext .invalidEscape (c :: cs)

/-- An escape that is skipped, after the backslash. -/
def skipEscape : List Char → Except Stop (List Char)
  | [] => stop .endInString []
  | 'u' :: cs => do return (← readHex cs).2
  | c :: cs => if (shortEscape? c).isSome then .ok cs else stopAtNext .invalidEscape (c :: cs)

/-! ### Reading and skipping

Every step takes at least one character off, so as many steps as the text has characters, and one
more to notice its end, are enough. -/

/-- A string after its opening quote, in a number of steps. -/
def readStringIn : Nat → Reader (List Char)
  | 0, cs => stop .endInString cs
  | _ + 1, [] => stop .endInString []
  | steps + 1, c :: cs =>
      if c = '"' then .ok ([], cs)
      else if c = '\\' then do
        let (d, cs) ← readEscape cs
        let (ds, cs) ← readStringIn steps cs
        return (d :: ds, cs)
      else if c.toNat < 0x20 then stop .controlCharacter cs
      else do
        let (ds, cs) ← readStringIn steps cs
        return (c :: ds, cs)

/-- A string after its opening quote. -/
def readString : Reader (List Char) := fun cs => readStringIn (cs.length + 1) cs

/-- Skips a string after its opening quote, in a number of steps. -/
def skipStringIn : Nat → List Char → Except Stop (List Char)
  | 0, cs => stop .endInString cs
  | _ + 1, [] => stop .endInString []
  | steps + 1, c :: cs =>
      if c = '"' then .ok cs
      else if c = '\\' then do skipStringIn steps (← skipEscape cs)
      else if c.toNat < 0x20 then stop .controlCharacter (c :: cs)
      else skipStringIn steps cs

/-- Skips a string after its opening quote. -/
def skipString (cs : List Char) : Except Stop (List Char) := skipStringIn (cs.length + 1) cs

end Calculator.Json
