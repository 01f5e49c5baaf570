/-
**Numbers in reports.**

A report on a value of the wrong form quotes a number by its value and not by its spelling.  A whole
number is quoted as it is, any other one with the fewest digits that read back, and with an exponent
if it is very large or very small.

Main definitions

* `Calculator.Json.ReportFormat`, `Calculator.Json.reportFormat` — how such numbers are laid out;
* `Calculator.Json.floatReport` — the text of a double;
* `Calculator.Json.Number.report` — a number as a report names it.
-/

import Calculator.Json.Number
import Calculator.Number.Text

set_option autoImplicit false

namespace Calculator.Json

/-- How a report writes a number that is not whole or too large to be read as whole. -/
structure ReportFormat where
  /-- Which of two equally near decimals is written. -/
  tieRule : TieRule
  /-- The most digits in front of the point; a number with more of them has an exponent. -/
  maxWhole : Int
  /-- The most zeros between the point and the first digit; a number with more of them has an
  exponent. -/
  maxLeadingZeros : Int
  /-- What stands in front of an exponent that is not negative. -/
  exponentSign : List Char

/-- Reports are positional below `10 ^ 16` and down to `10 ^ -5`, an exponent always has its sign,
and ties go to the even digit. -/
def reportFormat : ReportFormat := ⟨.toEven, 16, 4, ['+']⟩

/-- The exponent of a number after its letter. -/
def ReportFormat.exponentText (f : ReportFormat) (e : Int) : List Char :=
  (if 0 ≤ e then f.exponentSign else ['-']) ++ digits e.natAbs

/-- The text of the digits `ds`, the last of which is not zero, with `point` of them in front of the
point. -/
def ReportFormat.place (f : ReportFormat) (ds : List Char) (point : Int) : List Char :=
  if 0 < point ∧ point ≤ f.maxWhole then
    let whole := ds.take point.toNat
    let fraction := ds.drop point.toNat
    whole ++ List.replicate (point.toNat - ds.length) '0' ++
      '.' :: (if fraction.isEmpty then ['0'] else fraction)
  else if -f.maxLeadingZeros ≤ point ∧ point ≤ 0 then
    '0' :: '.' :: List.replicate (-point).toNat '0' ++ ds
  else
    (if ds.length = 1 then ds else ds.take 1 ++ '.' :: ds.drop 1) ++
      'e' :: f.exponentText (point - 1)

/-- The text of a number in a report. -/
def floatReport (v : Float) : String :=
  let sign := if Double.isNegative v then "-" else ""
  if v == 0 then sign ++ "0.0"
  else
    let d := shortestDecimal reportFormat.tieRule (Double.units v)
    let all := digits d.significand
    sign ++ String.ofList
      (reportFormat.place (dropTrailingZeros all) ((all.length : Int) + d.exponent))

/-- A number as a report names it. -/
def Number.report : Number → String
  | natural n => "integer `" ++ toString n ++ "`"
  | negative n => "integer `-" ++ toString n ++ "`"
  | float v => "floating point `" ++ floatReport v ++ "`"

end Calculator.Json
