/-
**Reading decimal literals.**

A literal is kept in a tree as the text that was typed and becomes a number when the tree is
evaluated.  The reader is more liberal than the entry field, since a tree may hold any text: it
takes a sign, the names of infinity and of the undefined value, a point with digits on one side or
both, and an exponent.  The value is the double nearest to the exact one; a literal too large is
infinite, one too small is zero.

Main definitions

* `Calculator.Decimal` — a whole number scaled by a power of ten, with `Calculator.Decimal.toFloat`;
* `Calculator.readLiteral` — the value of a literal, if its text is one.
-/

import Calculator.Number.Double

set_option autoImplicit false

namespace Calculator

/-! ### Scaled whole numbers -/

/-- The number `significand · 10 ^ exponent`. -/
structure Decimal where
  /-- The digits, read as a whole number. -/
  significand : Nat
  /-- The power of ten that scales them. -/
  exponent : Int
deriving DecidableEq, Repr

/-- The double nearest to a scaled whole number.  Exponents whose outcome the binary length of the
significand already settles (infinity beyond `2 ^ 1100`, zero below `2 ^ -1100`) are not expanded
into powers of ten. -/
def Decimal.toFloat (d : Decimal) : Float :=
  if d.significand = 0 then 0
  else
    match d.exponent with
    | .ofNat k =>
        if 1100 < Nat.log2 d.significand + 3 * k then Double.ofMagnitudeBits Double.infinityBits
        else Double.ofRatio (d.significand * tenPow k) 1
    | .negSucc k =>
        if Nat.log2 d.significand + 1101 < 3 * (k + 1) then 0
        else Double.ofRatio d.significand (tenPow (k + 1))

/-! ### The grammar of literals -/

/-- The value of a run of at least one digit. -/
def readDigits (cs : List Char) : Option Nat :=
  if cs.isEmpty || !cs.all Char.isDigit then none else some (ofDigits cs)

/-- An exponent: an optional sign, then digits. -/
def readExponent : List Char → Option Int
  | '+' :: cs => (readDigits cs).map Int.ofNat
  | '-' :: cs => (readDigits cs).map fun n => -(n : Int)
  | cs => (readDigits cs).map Int.ofNat

/-- An unsigned number: digits with at most one point and at least one digit, then an optional
exponent. -/
def readDecimal (cs : List Char) : Option Decimal :=
  let whole := cs.takeWhile Char.isDigit
  let afterWhole := cs.dropWhile Char.isDigit
  let (fraction, afterFraction) :=
    match afterWhole with
    | '.' :: r => (r.takeWhile Char.isDigit, r.dropWhile Char.isDigit)
    | r => ([], r)
  if whole.isEmpty && fraction.isEmpty then none
  else
    let significand := ofDigits (whole ++ fraction)
    match afterFraction with
    | [] => some ⟨significand, -(fraction.length : Int)⟩
    | c :: r =>
        if c = 'e' ∨ c = 'E' then
          (readExponent r).map fun e => ⟨significand, e - (fraction.length : Int)⟩
        else none

/-- The value of an unsigned literal: infinity or the undefined value by name, in any letter case,
or a number. -/
def readMagnitude (cs : List Char) : Option Float :=
  let name := String.ofList (cs.map Char.toLower)
  if name = "inf" ∨ name = "infinity" then some (Double.ofMagnitudeBits Double.infinityBits)
  else if name = "nan" then some (0 / 0)
  else (readDecimal cs).map Decimal.toFloat

/-- The value of a literal, none if the text is no literal. -/
def readLiteral : List Char → Option Float
  | '-' :: cs => (readMagnitude cs).map fun v => -v
  | '+' :: cs => readMagnitude cs
  | cs => readMagnitude cs

end Calculator
