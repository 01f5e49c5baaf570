/-
**Scalars in TOML.**

A scalar without quotes is a run of characters that is a boolean, a whole number, a float or a
point in time.  Digits may be grouped by single underscores; a whole number may be written to base
sixteen, eight or two; a date must exist in the calendar.

Main definitions

* `Calculator.Toml.readInteger?`, `Calculator.Toml.readFloat?`, `Calculator.Toml.isDateTime` — the
  kinds of scalars;
* `Calculator.Toml.readScalar?` — a scalar of any of them.
-/

import Calculator.Number.Literal
import Calculator.Toml.Value

set_option autoImplicit false

namespace Calculator.Toml

/-! ### Whole numbers -/

/-- The value of a digit to base sixteen. -/
def hexValue? (c : Char) : Option Nat :=
  if c.isDigit then some (c.toNat - '0'.toNat)
  else if 'a' ≤ c.toLower ∧ c.toLower ≤ 'f' then some (c.toLower.toNat - 'a'.toNat + 10)
  else none

/-- The value of a digit to some base. -/
def digitTo? (base : Nat) (c : Char) : Option Nat := (hexValue? c).filter (· < base)

/-- The digits of a number to some base: at least one, and underscores only between two of them. -/
def groupedDigits? (base : Nat) : List Char → Option (List Char)
  | [] => none
  | [c] => if (digitTo? base c).isSome then some [c] else none
  | c :: '_' :: cs =>
      if (digitTo? base c).isSome then (groupedDigits? base cs).map (c :: ·) else none
  | c :: cs =>
      if (digitTo? base c).isSome then (groupedDigits? base cs).map (c :: ·) else none

/-- The number written by digits to some base. -/
def ofBase (base : Nat) (cs : List Char) : Nat :=
  cs.foldl (fun n c => base * n + (digitTo? base c).getD 0) 0

/-- A decimal number without a sign: no zero in front of other digits. -/
def wholeDigits? (cs : List Char) : Option (List Char) :=
  match groupedDigits? 10 cs with
  | some ('0' :: _ :: _) => none
  | ds => ds

/-- A sign, if there is one, and what follows it. -/
def splitSign : List Char → Bool × List Char
  | '-' :: cs => (true, cs)
  | '+' :: cs => (false, cs)
  | cs => (false, cs)

/-- A whole number of at most 128 bits. -/
def readInteger? (cs : List Char) : Option Int :=
  let toBase (base : Nat) (cs : List Char) : Option Int :=
    (groupedDigits? base cs).map fun ds => (ofBase base ds : Int)
  let n : Option Int :=
    match cs with
    | '0' :: 'x' :: r => toBase 16 r
    | '0' :: 'o' :: r => toBase 8 r
    | '0' :: 'b' :: r => toBase 2 r
    | _ =>
        let (negative, r) := splitSign cs
        (wholeDigits? r).map fun ds => if negative then -(ofDigits ds : Int) else ofDigits ds
  n.filter fun n => decide (-(twoPow 127 : Int) ≤ n ∧ n < (twoPow 128 : Int))

/-! ### Floats -/

/-- Whether a text is an exponent after its letter. -/
def isExponent (cs : List Char) : Bool := (groupedDigits? 10 (splitSign cs).2).isSome

/-- Whether a character starts an exponent. -/
def isExponentLetter (c : Char) : Bool := c == 'e' || c == 'E'

/-- Whether a text is a decimal number with a fraction, an exponent, or both. -/
def isFloatText (cs : List Char) : Bool :=
  let mantissa := cs.takeWhile (!isExponentLetter ·)
  let exponent := cs.dropWhile (!isExponentLetter ·)
  let whole := mantissa.takeWhile (· != '.')
  let fraction := mantissa.dropWhile (· != '.')
  (wholeDigits? whole).isSome &&
    (fraction.isEmpty || (groupedDigits? 10 (fraction.drop 1)).isSome) &&
    (exponent.isEmpty || isExponent (exponent.drop 1)) &&
    !(fraction.isEmpty && exponent.isEmpty)

/-- A float; one beyond the range of doubles is none. -/
def readFloat? (cs : List Char) : Option Float :=
  let (negative, r) := splitSign cs
  let magnitude : Option Float :=
    if r = ['i', 'n', 'f'] ∨ r = ['n', 'a', 'n'] then readLiteral r
    else if isFloatText r then (readLiteral (r.filter (· != '_'))).filter Float.isFinite
    else none
  magnitude.map fun v => if negative then -v else v

/-! ### Points in time -/

/-- The number written by exactly so many digits. -/
def readFixed? (count : Nat) (cs : List Char) : Option (Nat × List Char) :=
  if (cs.take count).length = count ∧ (cs.take count).all Char.isDigit then
    some (ofDigits (cs.take count), cs.drop count)
  else none

/-- What follows an expected character. -/
def expectChar? (c : Char) : List Char → Option (List Char)
  | d :: cs => if d = c then some cs else none
  | [] => none

/-- The days of a month. -/
def daysIn (year month : Nat) : Nat :=
  if month = 2 then
    if year % 4 = 0 ∧ (year % 100 ≠ 0 ∨ year % 400 = 0) then 29 else 28
  else if month = 4 ∨ month = 6 ∨ month = 9 ∨ month = 11 then 30
  else 31

/-- What follows a date of the calendar. -/
def afterDate? (cs : List Char) : Option (List Char) := do
  let (year, cs) ← readFixed? 4 cs
  let (month, cs) ← readFixed? 2 (← expectChar? '-' cs)
  let (day, cs) ← readFixed? 2 (← expectChar? '-' cs)
  if 1 ≤ month ∧ month ≤ 12 ∧ 1 ≤ day ∧ day ≤ daysIn year month then some cs else none

/-- What follows the fraction of a second, if there is one. -/
def afterFraction? : List Char → Option (List Char)
  | '.' :: cs => if cs.head?.any Char.isDigit then some (cs.dropWhile Char.isDigit) else none
  | cs => some cs

/-- What follows a time of day; its seconds may be missing. -/
def afterTime? (cs : List Char) : Option (List Char) := do
  let (hour, cs) ← readFixed? 2 cs
  let (minute, cs) ← readFixed? 2 (← expectChar? ':' cs)
  if 23 < hour ∨ 59 < minute then none
  else
    match cs with
    | ':' :: r => do
        let (second, r) ← readFixed? 2 r
        if 60 < second then none else afterFraction? r
    | _ => some cs

/-- Whether a text is an offset from universal time, or nothing. -/
def isOffset : List Char → Bool
  | [] => true
  | ['Z'] => true
  | ['z'] => true
  | c :: cs =>
      (c == '+' || c == '-') &&
        ((do
          let (hour, cs) ← readFixed? 2 cs
          let (minute, cs) ← readFixed? 2 (← expectChar? ':' cs)
          if cs.isEmpty ∧ hour ≤ 23 ∧ minute ≤ 59 then some () else none) : Option Unit).isSome

/-- Whether a character stands between a date and a time. -/
def isDateTimeSeparator (c : Char) : Bool := c == 'T' || c == 't' || c == ' '

/-- Whether a text is a date, a time of day, or both. -/
def isDateTime (cs : List Char) : Bool :=
  match afterDate? cs with
  | some [] => true
  | some (c :: r) => isDateTimeSeparator c && (afterTime? r).any isOffset
  | none => (afterTime? cs).any List.isEmpty

/-! ### Any scalar -/

/-- A scalar. -/
def readScalar? (cs : List Char) : Option Value :=
  if cs = ['t', 'r', 'u', 'e'] then some (.boolean true)
  else if cs = ['f', 'a', 'l', 's', 'e'] then some (.boolean false)
  else
    match readInteger? cs with
    | some n => some (.integer n)
    | none =>
        match readFloat? cs with
        | some v => some (.float v)
        | none => if isDateTime cs then some (.dateTime cs) else none

end Calculator.Toml
