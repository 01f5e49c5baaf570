/-
**Texts of numbers.**

A number is written in two ways.  The *display text* is what the screen shows: as many decimals as
twelve significant digits leave, and at most fifteen, so that rounding noise in the last places
stays hidden; a whole part is written in full however long it is.  The *entry text* is what goes
back into the entry field when a result is used again: the fewest digits that read back as exactly
this number.  Neither text ever has an exponent, since the entry field has no way to write one, and
neither shows a sign on zero.

Main definitions

* `Calculator.displayText` — the display text, rounded half to even at its last place;
* `Calculator.shortestDecimal` — the fewest digits that read back, of those the nearest, with the
  choice between two that are equally near left to a `Calculator.TieRule`;
* `Calculator.entryText` — the entry text.
-/

import Calculator.Number.Literal

set_option autoImplicit false

namespace Calculator

/-! ### Parts shared by both texts -/

/-- The text of a number that is not finite. -/
def nonFiniteText (v : Float) : String :=
  if v.isNaN then "NaN" else if Double.isNegative v then "-inf" else "inf"

/-- A text of digits with the sign of the number in front, unless the digits are those of zero. -/
def signedText (negative : Bool) (cs : List Char) : List Char :=
  if negative && cs != ['0'] then '-' :: cs else cs

/-! ### Display text -/

/-- How a number is rounded for the screen. -/
structure DisplayFormat where
  /-- The significant digits that are kept. -/
  significantDigits : Nat
  /-- The most digits after the point, whatever the number. -/
  maxPlaces : Nat

/-- The screen keeps twelve significant digits and never more than fifteen places. -/
def screenFormat : DisplayFormat := ⟨12, 15⟩

/-- The places that leave the significant digits of a positive number `num / den`. -/
def DisplayFormat.places (f : DisplayFormat) (num den : Nat) : Nat :=
  min f.maxPlaces ((f.significantDigits : Int) - 1 - decimalExponent num den).toNat

/-- The text shown for a number. -/
def displayText (v : Float) : String :=
  if v == 0 then "0"
  else if !v.isFinite then nonFiniteText v
  else
    let n := Double.units v
    let places := screenFormat.places n Double.one
    let q := roundQuotient (n * tenPow places) Double.one
    String.ofList (signedText (Double.isNegative v) (plainText q places))

/-! ### Entry text -/

/-- The bits of the double nearest to a scaled whole number. -/
def Decimal.nearestBits (d : Decimal) : Nat :=
  match d.exponent with
  | .ofNat k => Double.nearestBits (d.significand * tenPow k * Double.one) 1
  | .negSucc k => Double.nearestBits (d.significand * Double.one) (tenPow (k + 1))

/-- A number of units as a numerator and denominator in multiples of `10 ^ exponent`. -/
def scaled (n : Nat) (exponent : Int) : Nat × Nat :=
  match exponent with
  | .ofNat k => (n, Double.one * tenPow k)
  | .negSucc k => (n * tenPow (k + 1), Double.one)

/-- Which of two neighbouring decimals is taken if both are equally near. -/
inductive TieRule where
  /-- The greater one. -/
  | upward
  /-- The one whose last digit is even. -/
  | toEven
deriving DecidableEq, Repr

/-- Whether the lower of two equally near neighbours is taken, given its significand. -/
def TieRule.takesLower (rule : TieRule) (significand : Nat) : Bool :=
  match rule with
  | .upward => false
  | .toEven => decide (significand % 2 = 0)

/-- The multiple of `10 ^ exponent` next to `n` units, from below or from above, that reads back as
the same double: the nearer one if both do. -/
def neighbour? (rule : TieRule) (n : Nat) (exponent : Int) : Option Decimal :=
  let (num, den) := scaled n exponent
  let bits := Double.nearestBits n 1
  let below : Decimal := ⟨num / den, exponent⟩
  let above : Decimal := ⟨num / den + 1, exponent⟩
  let belowReads := below.nearestBits == bits
  let aboveReads := above.nearestBits == bits
  let belowNearer := decide (2 * (num % den) < den) ||
    (decide (2 * (num % den) = den) && rule.takesLower (num / den))
  if belowReads && (!aboveReads || belowNearer) then some below
  else if aboveReads then some above
  else none

/-- The exact decimal value of `n` units: `n · 5 ^ 1074`, with as many places as a unit has. -/
def exactDecimal (n : Nat) : Decimal :=
  ⟨n * Nat.pow 5 Double.unitExponent, -(Double.unitExponent : Int)⟩

/-- The decimal with the fewest digits, at most seventeen, that reads back as `n` units; failing
that, the exact one. -/
def shortestDecimal (rule : TieRule) (n : Nat) : Decimal :=
  let lead := decimalExponent n Double.one
  ((List.range 17).findSome? fun k : Nat => neighbour? rule n (lead - (k : Int))).getD
    (exactDecimal n)

/-- The plain text of a scaled whole number. -/
def Decimal.text (d : Decimal) : List Char :=
  match d.exponent with
  | .ofNat k => plainText (d.significand * tenPow k) 0
  | .negSucc k => plainText d.significand (k + 1)

/-- The text that stands for a number in the entry field; ties go upward. -/
def entryText (v : Float) : String :=
  if v == 0 then "0"
  else if !v.isFinite then nonFiniteText v
  else
    String.ofList
      (signedText (Double.isNegative v) (shortestDecimal .upward (Double.units v)).text)

end Calculator
