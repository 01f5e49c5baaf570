/-
**The grammar of expressions.**

The readers of `Calculator.Expr.Parse` take operands off the front of the tokens and give up at two
bounds.  This module states what they are meant to recognise, as rules that know neither a reader
nor a bound: which lists of tokens form which tree at which of the five levels.  The rules of sums
and products are left recursive, which makes the four operations associate to the left.

A derivation also counts how deep parentheses, calls and minus signs nest in its tokens.  The count
cannot be read off the tree, since a tree does not keep the parentheses around it.

Main definitions

* `Calculator.Category` — the levels of the grammar;
* `Calculator.Derives` — the tokens that form an expression at a level, and how deep they nest.

Main results

* `Calculator.Derives.ne_nil` — no expression is formed by no tokens;
* `Calculator.Derives.number_mem` — every literal of the tree is a number among the tokens.
-/

import Calculator.Expr.Parse

set_option autoImplicit false

namespace Calculator

/-! ### Derivations -/

/-- The levels of the grammar, from the loosest to the tightest. -/
inductive Category where
  | sum
  | product
  | unary
  | power
  | primary
deriving DecidableEq, Repr

/-- `Derives c n ts e` says that the tokens `ts` form the expression `e` at the level `c` of the
grammar, and that parentheses, calls and minus signs nest `n` deep in them. -/
inductive Derives : Category → Nat → List Token → Expr → Prop
  | number (text : String) : Derives .primary 0 [.number text] (.literal text)
  | constant (k : Constant) : Derives .primary 0 [.constant k] (.constant k)
  | group {n : Nat} {ts : List Token} {e : Expr} : Derives .sum n ts e →
      Derives .primary (n + 1) (.leftParen :: ts ++ [.rightParen]) e
  | call (f : Function) {n : Nat} {ts : List Token} {e : Expr} : Derives .sum n ts e →
      Derives .primary (n + 1) (.function f :: .leftParen :: ts ++ [.rightParen]) (.call f e)
  | ofPrimary {n : Nat} {ts : List Token} {e : Expr} : Derives .primary n ts e →
      Derives .power n ts e
  | square {n : Nat} {ts : List Token} {e : Expr} : Derives .power n ts e →
      Derives .power n (ts ++ [.square]) (.square e)
  | percent {n : Nat} {ts : List Token} {e : Expr} : Derives .power n ts e →
      Derives .power n (ts ++ [.percent]) (.percent e)
  | ofPower {n : Nat} {ts : List Token} {e : Expr} : Derives .power n ts e →
      Derives .unary n ts e
  | neg {n : Nat} {ts : List Token} {e : Expr} : Derives .unary n ts e →
      Derives .unary (n + 1) (.minus :: ts) (.neg e)
  | ofUnary {n : Nat} {ts : List Token} {e : Expr} : Derives .unary n ts e →
      Derives .product n ts e
  | multiply {op : BinOp} {t : Token} {m n : Nat} {ts us : List Token} {x y : Expr} :
      BinOp.multiplicative? t = some op → Derives .product m ts x → Derives .unary n us y →
      Derives .product (max m n) (ts ++ t :: us) (.binary op x y)
  | ofProduct {n : Nat} {ts : List Token} {e : Expr} : Derives .product n ts e →
      Derives .sum n ts e
  | add {op : BinOp} {t : Token} {m n : Nat} {ts us : List Token} {x y : Expr} :
      BinOp.additive? t = some op → Derives .sum m ts x → Derives .product n us y →
      Derives .sum (max m n) (ts ++ t :: us) (.binary op x y)

namespace Derives

variable {c : Category} {n : Nat} {ts : List Token} {e : Expr}

/-- No expression is formed by no tokens. -/
theorem ne_nil (h : Derives c n ts e) : ts ≠ [] := by
  induction h with
  | ofPrimary _ ih => exact ih
  | ofPower _ ih => exact ih
  | ofUnary _ ih => exact ih
  | ofProduct _ ih => exact ih
  | _ => simp

/-- Only a unary expression, or a looser one, starts with a minus sign. -/
theorem exists_cons_ne_minus (h : Derives c n ts e) (hc : c = .power ∨ c = .primary) :
    ∃ t us, ts = t :: us ∧ t ≠ .minus := by
  induction h with
  | number | constant | group | call => exact ⟨_, _, rfl, by simp⟩
  | ofPrimary _ ih => exact ih (.inr rfl)
  | square _ ih =>
      obtain ⟨t, us, rfl, ht⟩ := ih (.inl rfl)
      exact ⟨t, us ++ [.square], rfl, ht⟩
  | percent _ ih =>
      obtain ⟨t, us, rfl, ht⟩ := ih (.inl rfl)
      exact ⟨t, us ++ [.percent], rfl, ht⟩
  | ofPower | neg | ofUnary | multiply | ofProduct | add => simp at hc

end Derives

/-! ### Literals -/

/-- The texts of the literals of an expression, from left to right. -/
def Expr.literals : Expr → List String
  | .literal text => [text]
  | .constant _ => []
  | .neg x => x.literals
  | .binary _ x y => x.literals ++ y.literals
  | .percent x => x.literals
  | .square x => x.literals
  | .call _ x => x.literals

/-- Every literal of an expression is a number among the tokens that form it. -/
theorem Derives.number_mem {c : Category} {n : Nat} {ts : List Token} {e : Expr}
    (h : Derives c n ts e) {text : String} (ht : text ∈ e.literals) : .number text ∈ ts := by
  induction h with
  | number =>
      rw [Expr.literals, List.mem_singleton] at ht
      simp [ht]
  | constant => simp [Expr.literals] at ht
  | ofPrimary _ ih => exact ih ht
  | ofPower _ ih => exact ih ht
  | ofUnary _ ih => exact ih ht
  | ofProduct _ ih => exact ih ht
  | group _ ih => simp [ih ht]
  | call _ _ ih => simp [ih ht]
  | square _ ih => simp [ih ht]
  | percent _ ih => simp [ih ht]
  | neg _ ih => simp [ih ht]
  | multiply _ _ _ ihx ihy =>
      rcases List.mem_append.1 ht with ht | ht
      · simp [ihx ht]
      · simp [ihy ht]
  | add _ _ _ ihx ihy =>
      rcases List.mem_append.1 ht with ht | ht
      · simp [ihx ht]
      · simp [ihy ht]

end Calculator
