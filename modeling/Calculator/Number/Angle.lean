/-
**Angles in degrees.**

Angles are reduced to one turn before a trigonometric function is applied, and the remainder is
exact: taking away full turns is arithmetic on whole multiples of `2⁻¹⁰⁷⁴`.  Only a negative angle
can make the reduction round, when a full turn is added to its remainder; a negative angle so small
that the sum rounds to a full turn counts as zero.

On a whole number of degrees where the function has the value zero, one half or one, with either
sign, that value is given exactly, and the tangent is undefined at a quarter and at three quarters
of a turn.  Elsewhere the angle is converted to radians.

Main definitions

* `Calculator.Angle.reduced` — an angle in the range from zero to a full turn;
* `Calculator.Trig.special?` — the exact values;
* `Calculator.Trig.ofDegrees` — a trigonometric function of an angle.
-/

import Calculator.Failure
import Calculator.Number.Double
import Calculator.Token

set_option autoImplicit false

namespace Calculator

/-! ### Reduction to one turn -/

namespace Angle

/-- A full turn, in units of `2⁻¹⁰⁷⁴` degrees. -/
def turn : Nat := 360 * Double.one

theorem turn_pos : 0 < turn := Nat.mul_pos (by decide) Double.one_pos

/-- A full turn, which only rounding can reach, counts as zero. -/
def wrap (u : Nat) : Nat := if turn ≤ u then 0 else u

theorem wrap_of_lt {u : Nat} (h : u < turn) : wrap u = u := by
  simp [wrap, Nat.not_le.2 h]

/-- The units of an angle of the given sign and magnitude, reduced to one turn: the remainder of a
positive angle, and for a negative one the double nearest to the remainder's complement. -/
def reducedUnits (negative : Bool) (n : Nat) : Nat :=
  let r := n % turn
  if negative && r != 0 then wrap (Double.roundUnits (turn - r)) else r

/-- An angle reduced to one turn, in units. -/
def units (degrees : Float) : Nat :=
  reducedUnits (Double.isNegative degrees) (Double.units degrees)

/-- An angle reduced to one turn. -/
def reduced (degrees : Float) : Float := Double.ofUnits (units degrees)

/-- The whole number of degrees of a reduced angle, if it is whole. -/
def wholeDegrees? (n : Nat) : Option Nat :=
  if n % Double.one = 0 then some (n / Double.one) else none

end Angle

/-! ### Trigonometric functions -/

/-- The trigonometric functions of the keypad. -/
inductive Trig where
  | sin
  | cos
  | tan
deriving DecidableEq, Repr

namespace Trig

/-- The trigonometric function that a key stands for; the root is none. -/
def ofFunction? : Function → Option Trig
  | .sin => some sin
  | .cos => some cos
  | .tan => some tan
  | .sqrt => none

/-- An exact value at a whole number of degrees. -/
inductive Special where
  | value (v : Float)
  | undefined

/-- The whole numbers of degrees, less than a turn, at which a function is zero, one half or one in
magnitude, or undefined. -/
def special? : Trig → Nat → Option Special
  | sin, 0 => some (.value 0)
  | sin, 30 => some (.value 0.5)
  | sin, 90 => some (.value 1)
  | sin, 150 => some (.value 0.5)
  | sin, 180 => some (.value 0)
  | sin, 210 => some (.value (-0.5))
  | sin, 270 => some (.value (-1))
  | sin, 330 => some (.value (-0.5))
  | cos, 0 => some (.value 1)
  | cos, 60 => some (.value 0.5)
  | cos, 90 => some (.value 0)
  | cos, 120 => some (.value (-0.5))
  | cos, 180 => some (.value (-1))
  | cos, 240 => some (.value (-0.5))
  | cos, 270 => some (.value 0)
  | cos, 300 => some (.value 0.5)
  | tan, 0 => some (.value 0)
  | tan, 45 => some (.value 1)
  | tan, 90 => some .undefined
  | tan, 135 => some (.value (-1))
  | tan, 180 => some (.value 0)
  | tan, 225 => some (.value 1)
  | tan, 270 => some .undefined
  | tan, 315 => some (.value (-1))
  | _, _ => none

/-- A function of an angle in radians. -/
def ofRadians : Trig → Float → Float
  | sin, r => r.sin
  | cos, r => r.cos
  | tan, r => r.tan

/-- A function of an angle in degrees, away from the exact values. -/
def approximate (f : Trig) (degrees : Float) : Float :=
  f.ofRadians (degrees * Constant.pi.value / 180)

/-- A function of an angle in degrees. -/
def ofDegrees (f : Trig) (degrees : Float) : Except ArithmeticError Float :=
  if !degrees.isFinite then .error .notFinite
  else
    match (Angle.wholeDegrees? (Angle.units degrees)).bind f.special? with
    | some (.value v) => .ok v
    | some .undefined => .error .outOfDomain
    | none => .ok (f.approximate (Angle.reduced degrees))

end Trig

end Calculator
