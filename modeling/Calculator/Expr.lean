/-
**Expressions.**

An expression is a tree: literals and constants at its leaves, above them negation, the four
operations, percent, square and the functions of the keypad.  Two measures bound what is handled:
the height of the tree, and how deeply parentheses and minus signs nest in its text.

Main definitions

* `Calculator.BinOp`, `Calculator.Expr` — expressions;
* `Calculator.Expr.height` — the number of nodes on the longest branch;
* `Calculator.maxHeight`, `Calculator.maxNesting` — the bounds.

Main results

* `Calculator.Expr.height_pos` — no tree is empty.
-/

import Calculator.Token

set_option autoImplicit false

namespace Calculator

/-! ### Trees -/

/-- The operations with two operands. -/
inductive BinOp where
  | add
  | sub
  | mul
  | div
deriving DecidableEq, Repr

/-- The character that writes an operation. -/
def BinOp.symbol : BinOp → Char
  | .add => '+'
  | .sub => '-'
  | .mul => '*'
  | .div => '/'

/-- An expression. -/
inductive Expr where
  /-- A number, as it was typed. -/
  | literal (text : String)
  | constant (k : Constant)
  | neg (x : Expr)
  | binary (op : BinOp) (x y : Expr)
  /-- A hundredth of the operand. -/
  | percent (x : Expr)
  /-- The operand times itself. -/
  | square (x : Expr)
  | call (f : Function) (x : Expr)
deriving DecidableEq, Repr

/-! ### Height -/

/-- The number of nodes on the longest branch. -/
def Expr.height : Expr → Nat
  | .literal _ => 1
  | .constant _ => 1
  | .neg x => x.height + 1
  | .binary _ x y => max x.height y.height + 1
  | .percent x => x.height + 1
  | .square x => x.height + 1
  | .call _ x => x.height + 1

theorem Expr.height_pos (e : Expr) : 0 < e.height := by
  cases e <;> simp [Expr.height]

/-- The largest height of a tree that is built from tokens. -/
def maxHeight : Nat := 1024

/-- The deepest nesting of parentheses and minus signs that is followed. -/
def maxNesting : Nat := 256

end Calculator
