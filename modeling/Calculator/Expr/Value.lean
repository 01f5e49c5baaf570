/-
**The value of an expression.**

An expression is evaluated in double precision, operands before the operation and from left to
right; the first error ends the evaluation.  Whether the value is finite is asked once, of the
whole expression: an intermediate infinity may still lead to a finite value.

Main definitions

* `Calculator.Expr.fold` — the value of an expression, finite or not;
* `Calculator.Expr.evaluate` — its value, if finite;
* `Calculator.evaluateText` — the value of what a text writes.

Main results

* `Calculator.Expr.isFinite_of_evaluate` — a value is finite;
* `Calculator.evaluateText_of_ofText`, `Calculator.evaluateText_of_error`,
  `Calculator.evaluateText_eq_ok` — what a text evaluates to is decided by what it writes.
-/

import Calculator.Expr.Parse
import Calculator.Number.Angle
import Calculator.Number.Literal

set_option autoImplicit false

namespace Calculator

/-! ### Operations -/

/-- The operation on two values; a divisor equal to zero is refused. -/
def BinOp.apply : BinOp → Float → Float → Except ArithmeticError Float
  | .add, a, b => .ok (a + b)
  | .sub, a, b => .ok (a - b)
  | .mul, a, b => .ok (a * b)
  | .div, a, b => if b == 0 then .error .divisionByZero else .ok (a / b)

/-- A function of a value; the root of a negative number is refused. -/
def Function.apply (f : Function) (v : Float) : Except ArithmeticError Float :=
  match Trig.ofFunction? f with
  | some t => t.ofDegrees v
  | none => if v < 0 then .error .outOfDomain else .ok v.sqrt

/-! ### Evaluation -/

namespace Expr

/-- The value of an expression, finite or not; a literal that is no number counts as not finite. -/
def fold : Expr → Except ArithmeticError Float
  | literal text =>
      match readLiteral text.toList with
      | some v => .ok v
      | none => .error .notFinite
  | constant k => .ok k.value
  | neg x => do
      let v ← x.fold
      return -v
  | binary op x y => do
      let a ← x.fold
      let b ← y.fold
      op.apply a b
  | percent x => do
      let v ← x.fold
      return v / 100
  | square x => do
      let v ← x.fold
      return v * v
  | call f x => do
      let v ← x.fold
      f.apply v

/-- The value of an expression, if it is finite. -/
def evaluate (e : Expr) : Except ArithmeticError Float :=
  match e.fold with
  | .error f => .error f
  | .ok v => if v.isFinite then .ok v else .error .notFinite

/-- A value is finite. -/
theorem isFinite_of_evaluate {e : Expr} {v : Float} (h : e.evaluate = .ok v) : v.isFinite := by
  unfold evaluate at h
  split at h
  · cases h
  · split at h
    · rename_i hv
      cases h
      exact hv
    · cases h

end Expr

/-- The value of what a text writes. -/
def evaluateText (s : String) : Except Failure Float :=
  match Expr.ofText s with
  | .error e => .error e
  | .ok e =>
      match e.evaluate with
      | .error f => .error (.arithmetic f)
      | .ok v => .ok v

/-- The value of a text is the value of the expression that it writes. -/
theorem evaluateText_of_ofText {s : String} {e : Expr} (h : Expr.ofText s = .ok e) :
    evaluateText s = e.evaluate.mapError .arithmetic := by
  rw [evaluateText, h]
  dsimp only
  cases e.evaluate <;> rfl

/-- A text that writes no expression has no value, for the same reason. -/
theorem evaluateText_of_error {s : String} {e : Failure} (h : Expr.ofText s = .error e) :
    evaluateText s = .error e := by
  rw [evaluateText, h]

/-- A text has a value if it writes an expression that has it. -/
theorem evaluateText_eq_ok {s : String} {v : Float} :
    evaluateText s = .ok v ↔ ∃ e, Expr.ofText s = .ok e ∧ e.evaluate = .ok v := by
  cases hs : Expr.ofText s with
  | error e => simp [evaluateText_of_error hs]
  | ok e =>
      rw [evaluateText_of_ofText hs]
      constructor
      · intro h
        refine ⟨e, rfl, ?_⟩
        cases hv : e.evaluate with
        | error f =>
            rw [hv] at h
            cases h
        | ok w =>
            rw [hv] at h
            cases h
            rfl
      · rintro ⟨e', he, hv⟩
        cases he
        rw [hv]
        rfl

end Calculator
