/-
**Double-precision numbers as whole multiples of one unit.**

Every finite double is a whole multiple of `2⁻¹⁰⁷⁴`, the smallest positive one.  Counting a number
in these units turns exact questions about doubles — which of them is nearest to a quotient, what
remains after taking away full turns, which decimals read back as a given one — into questions
about natural numbers.

The bits of `m · 2 ^ s` units, with a mantissa `m` of at most 53 binary digits that has all of them
unless `s = 0`, are the number `s · 2 ^ 52 + m`.  One formula covers the subnormal numbers, the
first normal binade (both with `s = 0`) and all the others, and a mantissa that rounds up to
`2 ^ 53` carries into the next binade by itself.

Main definitions

* `Calculator.Double.units` — the magnitude of a finite double, in units of `2⁻¹⁰⁷⁴`;
* `Calculator.Double.nearestBits` — the bits of the double nearest to a quotient of units;
* `Calculator.Double.ofUnits`, `Calculator.Double.ofRatio` — the nearest double itself.

Main results

* `Calculator.Double.one_pos` — one is some units.
-/

import Calculator.Number.Decimal

set_option autoImplicit false

namespace Calculator.Double

/-! ### Reading a double -/

/-- The unit is `2⁻¹⁰⁷⁴`. -/
@[irreducible] def unitExponent : Nat := 1074

/-- The number one, in units. -/
def one : Nat := twoPow unitExponent

theorem one_pos : 0 < one := twoPow_pos _

/-- The weight of the leading binary digit of a mantissa, `2 ^ 52`. -/
def leadingBit : Nat := 0x10000000000000

/-- The weight of the sign among the bits of a double, `2 ^ 63`. -/
def signBit : Nat := 0x8000000000000000

/-- The bits of positive infinity. -/
def infinityBits : Nat := 0x7FF0000000000000

/-- The bits of a double without its sign. -/
def magnitudeBits (v : Float) : Nat := v.toBits.toNat % signBit

/-- Whether a double has the sign bit set; zero may have it too. -/
def isNegative (v : Float) : Bool := decide (signBit ≤ v.toBits.toNat)

/-- The units that the bits of a finite magnitude stand for: a mantissa of at most 53 binary
digits, shifted. -/
def unitsOfBits (b : Nat) : Nat :=
  if b / leadingBit = 0 then b % leadingBit
  else (leadingBit + b % leadingBit) * twoPow (b / leadingBit - 1)

/-- The magnitude of a finite double, in units of `2⁻¹⁰⁷⁴`. -/
def units (v : Float) : Nat := unitsOfBits (magnitudeBits v)

theorem units_zero : units 0 = 0 := by decide +kernel

/-! ### The nearest double -/

/-- How many binary digits of `n` units lie below the 53 that a double keeps. -/
def shift (n : Nat) : Nat := Nat.log2 n - 52

/-- The bits of the double nearest to `num / den` units; of two equally near, the one with the even
mantissa.  A quotient too large for every finite double gives infinity. -/
def nearestBits (num den : Nat) : Nat :=
  let s := shift (num / den)
  min infinityBits (s * leadingBit + roundQuotient num (den * twoPow s))

/-- The positive double, or infinity, with the given bits. -/
def ofMagnitudeBits (b : Nat) : Float := Float.ofBits (UInt64.ofNat b)

/-- The double nearest to a number of units. -/
def ofUnits (n : Nat) : Float := ofMagnitudeBits (nearestBits n 1)

/-- The double nearest to `num / den`. -/
def ofRatio (num den : Nat) : Float := ofMagnitudeBits (nearestBits (num * one) den)

/-- A number of units rounded to those of the nearest double. -/
def roundUnits (n : Nat) : Nat := unitsOfBits (nearestBits n 1)

end Calculator.Double
