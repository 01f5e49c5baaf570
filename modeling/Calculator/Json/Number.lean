/-
**Numbers in JSON.**

A number is read as a whole significand of at most 64 bits and a power of ten.  Digits that no
longer fit into the significand only count towards the power.  A number without point and exponent
stays a whole number; otherwise the significand is rounded to a double once and multiplied or
divided by the double nearest to the power, and a number beyond the range of doubles is refused.

Main definitions

* `Calculator.Json.Number` — a number that was read, with `Calculator.Json.Number.toFloat`;
* `Calculator.Json.readNumber` — a number, after its minus sign if it has one;
* `Calculator.Json.skipNumber` — the same without its value or range.
-/

import Calculator.Json.Stop
import Calculator.Number.Literal

set_option autoImplicit false

namespace Calculator.Json

/-! ### Values -/

/-- A number that was read. -/
inductive Number where
  /-- A whole number of at most 64 bits. -/
  | natural (n : Nat)
  /-- The opposite of a positive whole number of at most 63 bits. -/
  | negative (n : Nat)
  /-- Any other number. -/
  | float (v : Float)
deriving DecidableEq, Repr

/-- A number as a double. -/
def Number.toFloat : Number → Float
  | natural n => Double.ofRatio n 1
  | negative n => -Double.ofRatio n 1
  | float v => v

/-- The double with a sign put in front. -/
def withSign (positive : Bool) (v : Float) : Float := if positive then v else -v

/-- The double nearest to a power of ten. -/
def powerOfTen (k : Nat) : Float := (⟨1, (k : Int)⟩ : Decimal).toFloat

/-- Divides by a power of ten, in steps of at most `10 ^ 308`. -/
def divideByPower (v : Float) (k : Nat) : Float :=
  if k ≤ 308 then v / powerOfTen k
  else if v == 0 then v
  else divideByPower (v / powerOfTen 308) (k - 308)
termination_by k
decreasing_by omega

/-- A significand times a power of ten; none if it leaves the range of doubles. -/
def scaleByPower (significand : Nat) : Int → Option Float
  | .ofNat k =>
      let v := Double.ofRatio significand 1
      if 308 < k then if v == 0 then some v else none
      else
        let scaled := v * powerOfTen k
        if scaled.isFinite then some scaled else none
  | .negSucc k => some (divideByPower (Double.ofRatio significand 1) (k + 1))

/-! ### Significands -/

/-- The largest significand. -/
def maxSignificand : Nat := twoPow 64 - 1

/-- Adds digits to a significand while they fit; counts those that fit and those that do not. -/
def absorb (significand : Nat) : List Char → Nat × Nat × Nat
  | [] => (significand, 0, 0)
  | c :: cs =>
      let next := 10 * significand + digitValue c
      if maxSignificand < next then (significand, 0, cs.length + 1)
      else
        let (s, fitting, dropped) := absorb next cs
        (s, fitting + 1, dropped)

@[simp] theorem absorb_nil (significand : Nat) : absorb significand [] = (significand, 0, 0) := rfl

/-! ### Reading -/

/-- A significand with its power of ten as a float, unless it is out of range. -/
def finishFloat (positive : Bool) (significand : Nat) (exponent : Int) (cs : List Char) :
    Except Stop (Number × List Char) :=
  match scaleByPower significand exponent with
  | some v => .ok (.float (withSign positive v), cs)
  | none => stop .numberOutOfRange cs

/-- The largest power of ten that is followed digit by digit. -/
def maxExponent : Nat := twoPow 31 - 1

/-- The digits of an exponent up to the one that exceeds the largest: the value reached, the digits
after it, and whether it was exceeded. -/
def readExponentDigits (value : Nat) : List Char → Nat × List Char × Bool
  | [] => (value, [], false)
  | c :: cs =>
      if c.isDigit then
        let next := 10 * value + digitValue c
        if maxExponent < next then (value, cs, true) else readExponentDigits next cs
      else (value, c :: cs, false)

/-- An exponent after its letter: whether it is positive, and the text from its first digit on. -/
def readExponentSign : List Char → Bool × List Char
  | '+' :: cs => (true, cs)
  | '-' :: cs => (false, cs)
  | cs => (true, cs)

/-- The exponent of a number, after its letter. -/
def readPower (positive : Bool) (significand : Nat) (exponent : Int) (cs : List Char) :
    Except Stop (Number × List Char) :=
  let (up, cs) := readExponentSign cs
  match cs with
  | [] => stop .endInValue []
  | c :: r =>
      if c.isDigit then
        match readExponentDigits 0 (c :: r) with
        | (_, rest, true) =>
            if significand ≠ 0 ∧ up then stop .numberOutOfRange rest
            else .ok (.float (withSign positive 0), rest.dropWhile Char.isDigit)
        | (power, rest, false) =>
            finishFloat positive significand
              (if up then exponent + (power : Int) else exponent - (power : Int)) rest
      else stopAtNext .invalidNumber (c :: r)

/-- The exponent of a number if there is one. -/
def readOptionalPower (positive : Bool) (significand : Nat) (exponent : Int) (cs : List Char) :
    Except Stop (Number × List Char) :=
  match cs with
  | 'e' :: r => readPower positive significand exponent r
  | 'E' :: r => readPower positive significand exponent r
  | _ => finishFloat positive significand exponent cs

/-- The digits after the point and what follows them. -/
def readFraction (positive : Bool) (significand : Nat) (exponent : Int) (cs : List Char) :
    Except Stop (Number × List Char) :=
  let ds := cs.takeWhile Char.isDigit
  if ds.isEmpty then stopAtNext (if cs.isEmpty then .endInValue else .invalidNumber) cs
  else
    let (s, fitting, _) := absorb significand ds
    readOptionalPower positive s (exponent - (fitting : Int)) (cs.dropWhile Char.isDigit)

/-- What follows the digits in front of the point. -/
def readAfterWhole (positive : Bool) (significand dropped : Nat) (cs : List Char) :
    Except Stop (Number × List Char) :=
  match cs with
  | '.' :: r => readFraction positive significand (dropped : Int) r
  | 'e' :: r => readPower positive significand (dropped : Int) r
  | 'E' :: r => readPower positive significand (dropped : Int) r
  | _ =>
      if dropped ≠ 0 then finishFloat positive significand (dropped : Int) cs
      else if positive then .ok (.natural significand, cs)
      else if significand = 0 ∨ twoPow 63 < significand then
        .ok (.float (-Double.ofRatio significand 1), cs)
      else .ok (.negative significand, cs)

/-- A number, after its minus sign if it is not positive. -/
def readNumber (positive : Bool) (cs : List Char) : Except Stop (Number × List Char) :=
  match cs with
  | [] => stop .endInValue []
  | '0' :: r =>
      if r.head?.any Char.isDigit then stopAtNext .invalidNumber r
      else readAfterWhole positive 0 0 r
  | c :: r =>
      if c.isDigit then
        let (s, _, dropped) := absorb 0 (c :: r.takeWhile Char.isDigit)
        readAfterWhole positive s dropped (r.dropWhile Char.isDigit)
      else stopAtNext .invalidNumber (c :: r)

/-! ### Skipping -/

/-- Skips an exponent after its letter. -/
def skipPower (cs : List Char) : Except Stop (List Char) :=
  match (readExponentSign cs).2 with
  | [] => stop .invalidNumber []
  | c :: r =>
      if c.isDigit then .ok (r.dropWhile Char.isDigit) else stopAtNext .invalidNumber (c :: r)

/-- Skips an exponent if there is one. -/
def skipOptionalPower : List Char → Except Stop (List Char)
  | 'e' :: r => skipPower r
  | 'E' :: r => skipPower r
  | cs => .ok cs

/-- Skips what follows the digits in front of the point. -/
def skipAfterWhole : List Char → Except Stop (List Char)
  | '.' :: r =>
      if r.head?.any Char.isDigit then skipOptionalPower (r.dropWhile Char.isDigit)
      else stopAtNext .invalidNumber r
  | cs => skipOptionalPower cs

/-- Skips a number after its minus sign. -/
def skipNumber : List Char → Except Stop (List Char)
  | [] => stop .invalidNumber []
  | '0' :: r =>
      if r.head?.any Char.isDigit then stopAtNext .invalidNumber r else skipAfterWhole r
  | c :: r =>
      if c.isDigit then skipAfterWhole (r.dropWhile Char.isDigit)
      else stopAtNext .invalidNumber (c :: r)

end Calculator.Json
