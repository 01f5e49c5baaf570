/-
**The canonical text of an expression.**

The canonical text is ASCII: `*` and `/` for the operations, `pi` and `sqrt` for the symbols, `^2`
for a square and a division by one hundred for a percent.  It is written from the tree and not from
the typed text, with the parentheses that the tree needs and no others, so that reading it back
gives the same structure wherever it is evaluated.

Every form has a binding level, and a form that binds less tightly than its place demands is put in
parentheses.

Main definitions

* `Calculator.Level`, `Calculator.Expr.level` — how tightly the text of a form binds;
* `Calculator.Expr.render` — the text of an expression in a place of a given level;
* `Calculator.Expr.canonicalText` — the canonical text.

Main results

* `Calculator.Expr.render_of_le`, `Calculator.Expr.render_of_lt` — a place adds parentheses or
  nothing.
-/

import Calculator.Expr.Parse

set_option autoImplicit false

namespace Calculator

/-! ### Binding levels -/

/-- How tightly a text binds: from `0`, where anything may stand, to `5`, where only atoms may. -/
abbrev Level := Nat

namespace Level

/-- Sums and differences. -/
def sum : Level := 1

/-- Products, quotients and percents. -/
def product : Level := 2

/-- Negations. -/
def unary : Level := 3

/-- Squares. -/
def power : Level := 4

/-- Numbers, constants and function calls. -/
def atom : Level := 5

end Level

/-- The level of an operation. -/
def BinOp.level : BinOp → Level
  | .add => .sum
  | .sub => .sum
  | .mul => .product
  | .div => .product

/-- The level of the canonical text of an expression; a percent is written as a division. -/
def Expr.level : Expr → Level
  | .literal _ => .atom
  | .constant _ => .atom
  | .call _ _ => .atom
  | .square _ => .power
  | .neg _ => .unary
  | .percent _ => .product
  | .binary op _ _ => op.level

/-! ### Writing -/

/-- A text in parentheses. -/
def parenthesized (cs : List Char) : List Char := '(' :: cs ++ [')']

/-- A text, in parentheses if it binds less tightly than its place demands. -/
def placed (level place : Level) (cs : List Char) : List Char :=
  if level < place then parenthesized cs else cs

/-- The text of an expression in a place that demands a level. -/
def Expr.render : Expr → Level → List Char
  | .literal text, place => placed .atom place text.toList
  | .constant k, place => placed .atom place k.name
  | .neg x, place => placed .unary place ('-' :: x.render .unary)
  | .binary op x y, place =>
      placed op.level place (x.render op.level ++ op.symbol :: y.render (op.level + 1))
  | .percent x, place => placed .product place (x.render .product ++ ['/', '1', '0', '0'])
  | .square x, place => placed .power place (x.render .atom ++ ['^', '2'])
  | .call f x, place => placed .atom place (f.name ++ '(' :: x.render 0 ++ [')'])

theorem placed_of_le {level place : Level} (h : place ≤ level) (cs : List Char) :
    placed level place cs = cs := by
  simp [placed, Nat.not_lt.2 h]

theorem placed_of_lt {level place : Level} (h : level < place) (cs : List Char) :
    placed level place cs = parenthesized cs := by
  simp [placed, h]

/-- Where its level suffices, an expression is written as at the loosest place. -/
theorem Expr.render_of_le {e : Expr} {place : Level} (h : place ≤ e.level) :
    e.render place = e.render 0 := by
  cases e <;> simp only [Expr.render, Expr.level] at h ⊢ <;>
    rw [placed_of_le h, placed_of_le (Nat.zero_le _)]

/-- Where its level does not suffice, an expression is written in parentheses. -/
theorem Expr.render_of_lt {e : Expr} {place : Level} (h : e.level < place) :
    e.render place = parenthesized (e.render 0) := by
  cases e <;> simp only [Expr.render, Expr.level] at h ⊢ <;>
    rw [placed_of_lt h, placed_of_le (Nat.zero_le _)]

/-- The canonical text of an expression. -/
def Expr.canonicalText (e : Expr) : String := String.ofList (e.render 0)

/-- The canonical text of what a text writes. -/
def canonicalForm (s : String) : Except Failure String :=
  match Expr.ofText s with
  | .error e => .error e
  | .ok e => .ok e.canonicalText

end Calculator
