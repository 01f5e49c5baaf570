/-
**Expressions from tokens.**

The grammar has five levels, from the loosest to the tightest:

```
sum      := product (('+' | '-') product)*
product  := unary (('*' | '/') unary)*
unary    := '-' unary | power
power    := primary ('²' | '%')*
primary  := number | constant | '(' sum ')' | function '(' sum ')'
```

The four operations associate to the left, and a minus sign binds less tightly than a square, so
that `-3²` is the opposite of nine.  A reader of one level takes an operand off the front of the
tokens.  Only a minus sign and an opening parenthesis lead one nesting level deeper, so the readers
are built upwards from the refusal that stands below the deepest level: `unary bound n` follows the
nesting `n` levels down.  Each operator in a chain adds one to the height of the tree on its left,
and a tree higher than `bound` is refused, which is also why a chain ends.

Main definitions

* `Calculator.Operand` — an operand with its height and the tokens after it;
* `Calculator.primary`, `Calculator.power`, `Calculator.unary`, `Calculator.product`,
  `Calculator.sum` — the readers;
* `Calculator.Expr.ofTokensWithin` — the expression that tokens form, given the bounds;
* `Calculator.Expr.ofTokens`, `Calculator.Expr.ofText` — the expression that tokens or a text form.

Main results

* `Calculator.unary_zero` — below the deepest level everything is refused.
-/

import Calculator.Expr
import Calculator.Token.Scan

set_option autoImplicit false

namespace Calculator

/-! ### Operands -/

/-- An operand taken off the front of the tokens. -/
structure Operand where
  /-- The tree built so far. -/
  expr : Expr
  /-- Its height. -/
  height : Nat
  /-- The tokens after it. -/
  rest : List Token
deriving DecidableEq, Repr

/-- A reader of one level of the grammar. -/
abbrev Reader := List Token → Except SyntaxError Operand

/-- A node above trees of height `below`, unless it is higher than `bound`. -/
def node (bound : Nat) (e : Expr) (below : Nat) (rest : List Token) : Except SyntaxError Operand :=
  if below + 1 ≤ bound then .ok ⟨e, below + 1, rest⟩ else .error .tooDeep

/-! ### The levels of the grammar -/

/-- The operation that a token adds to a sum. -/
def BinOp.additive? : Token → Option BinOp
  | .plus => some .add
  | .minus => some .sub
  | _ => none

/-- The operation that a token adds to a product. -/
def BinOp.multiplicative? : Token → Option BinOp
  | .times => some .mul
  | .divide => some .div
  | _ => none

/-- Square and percent markers after an operand. -/
def postfixes (bound : Nat) (e : Expr) (height : Nat) : Reader
  | .square :: ts =>
      if height + 1 ≤ bound then postfixes bound (.square e) (height + 1) ts else .error .tooDeep
  | .percent :: ts =>
      if height + 1 ≤ bound then postfixes bound (.percent e) (height + 1) ts else .error .tooDeep
  | ts => .ok ⟨e, height, ts⟩

/-- Operators of one level with their right operands, gathered to the left. -/
def chain (bound : Nat) (op? : Token → Option BinOp) (operand : Reader) (left : Operand) :
    Except SyntaxError Operand :=
  match left.rest with
  | [] => .ok left
  | t :: ts =>
      match op? t with
      | none => .ok left
      | some op => do
          let right ← operand ts
          if max left.height right.height + 1 ≤ bound then
            chain bound op? operand
              ⟨.binary op left.expr right.expr, max left.height right.height + 1, right.rest⟩
          else .error .tooDeep
termination_by bound - left.height
decreasing_by omega

/-- A chain of operands of one level. -/
def chained (bound : Nat) (op? : Token → Option BinOp) (operand : Reader) : Reader := fun ts => do
  let left ← operand ts
  chain bound op? operand left

/-- A product, given the reader of its factors. -/
def product (bound : Nat) (unary : Reader) : Reader := chained bound BinOp.multiplicative? unary

/-- A sum, given the reader of its factors. -/
def sum (bound : Nat) (unary : Reader) : Reader :=
  chained bound BinOp.additive? (product bound unary)

/-- What follows an opening parenthesis, up to the closing one. -/
def group (bound : Nat) (inner : Reader) : Reader := fun ts => do
  let x ← sum bound inner ts
  match x.rest with
  | .rightParen :: rest => .ok ⟨x.expr, x.height, rest⟩
  | _ => .error .unclosedParen

/-- A number, a constant, a group, or a function with its argument. -/
def primary (bound : Nat) (inner : Reader) : Reader
  | .number text :: ts => .ok ⟨.literal text, 1, ts⟩
  | .constant k :: ts => .ok ⟨.constant k, 1, ts⟩
  | .leftParen :: ts => group bound inner ts
  | .function f :: .leftParen :: ts => do
      let x ← group bound inner ts
      node bound (.call f x.expr) x.height x.rest
  | .function _ :: _ => .error .unclosedParen
  | _ => .error .unexpectedToken

/-- A primary expression with the markers after it. -/
def power (bound : Nat) (inner : Reader) : Reader := fun ts => do
  let x ← primary bound inner ts
  postfixes bound x.expr x.height x.rest

/-- A unary expression, given the reader of unary expressions one nesting level deeper. -/
def unaryAbove (bound : Nat) (inner : Reader) : Reader
  | .minus :: ts => do
      let x ← inner ts
      node bound (.neg x.expr) x.height x.rest
  | ts => power bound inner ts

/-- The reader of unary expressions that follows the nesting `n` levels down; below the last level
it refuses. -/
def unary (bound : Nat) : Nat → Reader
  | 0 => fun _ => .error .tooDeep
  | n + 1 => unaryAbove bound (unary bound n)

@[simp] theorem unary_zero (bound : Nat) (ts : List Token) :
    unary bound 0 ts = .error .tooDeep := rfl

/-! ### Whole expressions -/

namespace Expr

/-- The expression that a list of tokens forms, if its tree is not higher than `bound` and its
tokens nest no deeper than `nesting`. -/
def ofTokensWithin (bound nesting : Nat) (ts : List Token) : Except SyntaxError Expr :=
  if ts.isEmpty then .error .emptyExpression
  else do
    let x ← sum bound (unary bound (nesting + 1)) ts
    match x.rest with
    | [] => .ok x.expr
    | .rightParen :: _ => .error .unclosedParen
    | _ => .error .unexpectedToken

/-- The expression that a list of tokens forms. -/
def ofTokens (ts : List Token) : Except SyntaxError Expr := ofTokensWithin maxHeight maxNesting ts

@[simp] theorem ofTokens_nil : ofTokens [] = .error .emptyExpression := rfl

/-- The expression that a text writes. -/
def ofText (s : String) : Except Failure Expr :=
  match Token.ofText s with
  | .error e => .error (.lexical e)
  | .ok ts =>
      match ofTokens ts with
      | .error e => .error (.syntactic e)
      | .ok e => .ok e

end Expr

end Calculator
