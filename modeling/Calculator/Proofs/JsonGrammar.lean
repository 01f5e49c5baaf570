/-
**The grammar of JSON.**

What a text in JSON says is a value: a name, a number, a string, a list or an object.  The grammar
relates a value to the texts it is written as, given what follows it.  Numbers and strings are kept
as they are written: a number with the digits of its parts, a string with the characters between its
quotes.  What a string denotes is a relation of its own, since not every string denotes a text: an
escaped surrogate without its partner is well formed, but no character.

Main definitions

* `Calculator.Json.Numeral` — a number as it is written, with `Calculator.Json.Numeral.text`;
* `Calculator.Json.IsContent`, `Calculator.Json.Denotes` — what may stand between the quotes of a
  string, and the text that it denotes;
* `Calculator.Json.Value`, `Calculator.Json.Written` — a value, and the front of a text where it is
  written;
* `Calculator.Json.TextOf` — a whole text that writes a value.

Main results

* `Calculator.Json.isContent_of_denotes` — what denotes a text may stand between quotes.
-/

import Calculator.Json.Number
import Calculator.Json.Quoted
import Mathlib.Data.List.TakeWhile

set_option autoImplicit false

namespace Calculator.Json

/-! ### Numbers -/

/-- The exponent of a number: a letter, an optional sign and digits. -/
structure Exponent where
  letter : Char
  sign : List Char
  digits : List Char
  letter_mem : letter ∈ ['e', 'E']
  sign_mem : sign ∈ [[], ['+'], ['-']]
  digits_ne_nil : digits ≠ []
  isDigit_digits : ∀ c ∈ digits, c.isDigit

/-- The exponent as it is written. -/
def Exponent.text (x : Exponent) : List Char := x.letter :: (x.sign ++ x.digits)

/-- An exponent as it is written, if there is one. -/
def exponentText (o : Option Exponent) : List Char := (o.map Exponent.text).getD []

/-- The digits of a fraction as they are written, behind a point if there are any. -/
def fractionText (ds : List Char) : List Char := if ds.isEmpty then [] else '.' :: ds

/-- A number: an optional minus sign, digits without needless zeros in front, and an optional
fraction and exponent.  Without digits after the point there is no fraction. -/
structure Numeral where
  negative : Bool
  whole : List Char
  fraction : List Char
  exponent : Option Exponent
  whole_ne_nil : whole ≠ []
  isDigit_whole : ∀ c ∈ whole, c.isDigit
  whole_eq_of_zero : whole.head? = some '0' → whole = ['0']
  isDigit_fraction : ∀ c ∈ fraction, c.isDigit

namespace Numeral

/-- The number as it is written, without its sign. -/
def magnitudeText (n : Numeral) : List Char :=
  n.whole ++ (fractionText n.fraction ++ exponentText n.exponent)

/-- The number as it is written. -/
def text (n : Numeral) : List Char :=
  if n.negative then '-' :: n.magnitudeText else n.magnitudeText

end Numeral

/-! ### Strings -/

/-- Four hexadecimal digits that write a number. -/
def IsHex (hex : List Char) (n : Nat) : Prop := hex.length = 4 ∧ hexNumber? hex = some n

/-- A character that stands for itself between quotes. -/
def IsPlain (c : Char) : Prop := c ≠ '"' ∧ c ≠ '\\' ∧ 0x20 ≤ c.toNat

/-- What may stand behind the backslash of an escape. -/
inductive IsEscape : List Char → Prop where
  | short {c d : Char} (h : shortEscape? c = some d) : IsEscape [c]
  | unicode {hex : List Char} {n : Nat} (h : IsHex hex n) : IsEscape ('u' :: hex)

/-- What may stand between the quotes of a string. -/
inductive IsContent : List Char → Prop where
  | nil : IsContent []
  | plain {c : Char} {cs : List Char} (hc : IsPlain c) (h : IsContent cs) : IsContent (c :: cs)
  | escape {es cs : List Char} (he : IsEscape es) (h : IsContent cs) :
      IsContent ('\\' :: (es ++ cs))

/-- What stands behind the backslash of an escape denotes a character.  One beyond the first plane
is escaped as a pair of surrogates, and a surrogate stands for nothing else. -/
inductive EscapeDenotes : List Char → Char → Prop where
  | short {c d : Char} (h : shortEscape? c = some d) : EscapeDenotes [c] d
  | unicode {hex : List Char} {n : Nat} (h : IsHex hex n) (hleading : isLeading n = false)
      (htrailing : isTrailing n = false) : EscapeDenotes ('u' :: hex) (Char.ofNat n)
  | pair {hex hex' : List Char} {n m : Nat} (h : IsHex hex n) (h' : IsHex hex' m)
      (hleading : isLeading n) (htrailing : isTrailing m) :
      EscapeDenotes ('u' :: (hex ++ '\\' :: 'u' :: hex'))
        (Char.ofNat (0x10000 + (n - 0xD800) * 0x400 + (m - 0xDC00)))

/-- What stands between the quotes of a string denotes a text. -/
inductive Denotes : List Char → List Char → Prop where
  | nil : Denotes [] []
  | plain {c : Char} {cs ds : List Char} (hc : IsPlain c) (h : Denotes cs ds) :
      Denotes (c :: cs) (c :: ds)
  | escape {d : Char} {es cs ds : List Char} (he : EscapeDenotes es d) (h : Denotes cs ds) :
      Denotes ('\\' :: (es ++ cs)) (d :: ds)

/-- What denotes a text may stand between quotes. -/
theorem isContent_of_denotes {cs ds : List Char} (h : Denotes cs ds) : IsContent cs := by
  induction h with
  | nil => exact .nil
  | plain hc _ ih => exact .plain hc ih
  | escape he _ ih =>
      cases he with
      | short h => exact .escape (.short h) ih
      | unicode h => exact .escape (.unicode h) ih
      | pair h h' =>
          -- the two halves of a pair are two escapes
          have := IsContent.escape (.unicode h) (.escape (.unicode h') ih)
          simpa using this

/-! ### Values -/

/-- The names that are values. -/
inductive Name where
  | null
  | true
  | false
deriving DecidableEq, Repr

/-- A name as it is written. -/
def Name.text : Name → List Char
  | null => ['n', 'u', 'l', 'l']
  | true => ['t', 'r', 'u', 'e']
  | false => ['f', 'a', 'l', 's', 'e']

/-- A value.  The keys of an object and strings are kept as they are written between quotes. -/
inductive Value where
  | name (name : Name)
  | number (n : Numeral)
  | string (content : List Char)
  | list (items : List Value)
  | object (members : List (List Char × Value))

/-- A text goes on with another one behind space. -/
def Space (cs r : List Char) : Prop := ∃ s, (∀ c ∈ s, isSpace c) ∧ cs = s ++ r

mutual

/-- A value is written at the front of a text, and something follows it. -/
inductive Written : Value → List Char → List Char → Prop where
  | name (name : Name) (r : List Char) : Written (.name name) (name.text ++ r) r
  | number (n : Numeral) (r : List Char) : Written (.number n) (n.text ++ r) r
  | string {content : List Char} (h : IsContent content) (r : List Char) :
      Written (.string content) ('"' :: (content ++ '"' :: r)) r
  | emptyList {cs r : List Char} (hs : Space cs (']' :: r)) : Written (.list []) ('[' :: cs) r
  | list {vs : List Value} {cs r : List Char} (h : WrittenItems vs cs r) :
      Written (.list vs) ('[' :: cs) r
  | emptyObject {cs r : List Char} (hs : Space cs ('}' :: r)) : Written (.object []) ('{' :: cs) r
  | object {ms : List (List Char × Value)} {cs r : List Char} (h : WrittenMembers ms cs r) :
      Written (.object ms) ('{' :: cs) r

/-- The items of a list are written at the front of a text, with commas between them and the closing
bracket behind them. -/
inductive WrittenItems : List Value → List Char → List Char → Prop where
  | last {v : Value} {cs ds es r : List Char} (hs : Space cs ds) (hv : Written v ds es)
      (hend : Space es (']' :: r)) : WrittenItems [v] cs r
  | cons {v : Value} {vs : List Value} {cs ds es fs r : List Char} (hs : Space cs ds)
      (hv : Written v ds es) (hnext : Space es (',' :: fs)) (h : WrittenItems vs fs r) :
      WrittenItems (v :: vs) cs r

/-- A member of an object is written at the front of a text: its key, a colon and its value. -/
inductive WrittenMember : List Char × Value → List Char → List Char → Prop where
  | mk {key : List Char} {v : Value} {cs ds es fs r : List Char}
      (hs : Space cs ('"' :: (key ++ '"' :: ds))) (hkey : IsContent key)
      (hcolon : Space ds (':' :: es)) (hs' : Space es fs) (hv : Written v fs r) :
      WrittenMember (key, v) cs r

/-- The members of an object are written at the front of a text, with commas between them and the
closing brace behind them. -/
inductive WrittenMembers : List (List Char × Value) → List Char → List Char → Prop where
  | last {m : List Char × Value} {cs ds r : List Char} (hm : WrittenMember m cs ds)
      (hend : Space ds ('}' :: r)) : WrittenMembers [m] cs r
  | cons {m : List Char × Value} {ms : List (List Char × Value)} {cs ds es r : List Char}
      (hm : WrittenMember m cs ds) (hnext : Space ds (',' :: es)) (h : WrittenMembers ms es r) :
      WrittenMembers (m :: ms) cs r

end

/-- A text writes a value and nothing else but space. -/
def TextOf (v : Value) (cs : List Char) : Prop :=
  ∃ ds r, Space cs ds ∧ Written v ds r ∧ Space r []

theorem space_skipSpace (cs : List Char) : Space cs (skipSpace cs) :=
  ⟨cs.takeWhile isSpace, fun _ hc => List.mem_takeWhile_imp hc,
    List.takeWhile_append_dropWhile.symm⟩

end Calculator.Json
