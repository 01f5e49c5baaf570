/-
**Recursive descent with a cursor.**

The readers of `Calculator.Expr.Parse` hand what is left of the tokens from one to the next, and
there is one reader of unary expressions for every level of nesting.  Here is the same analysis as
it is carried out step by step.  The tokens stay where they are.  A cursor holds the place of the
next token and the depth, which counts the parentheses, calls and minus signs that have been entered
and not left, and six routines that call each other move it.

The books are kept by hand.  A place may be moved past the end of the tokens; a level is entered
before its contents are analysed, refused if it is too deep, and left only if the contents end as
they should, since an error ends the whole analysis.  Leaving a level that was not entered would be
an `underflow`, an outcome of its own.  So is `exhausted`: the levels of unary expressions that may
be called inside each other are numbered downwards, which is why a routine ends, and below the last
one there is nothing to call.

A run keeps every cursor that it has moved to, whether it succeeds or not.

Main definitions

* `Calculator.Descent.Cursor`, `Calculator.Descent.Run`, `Calculator.Descent.Routine` — where the
  analysis stands, what comes of running a routine, and routines;
* `Calculator.Descent.sum`, `Calculator.Descent.product`, `Calculator.Descent.unary`,
  `Calculator.Descent.power`, `Calculator.Descent.primary`, `Calculator.Descent.group` — the six
  routines, gathered in `Calculator.Descent.routine`;
* `Calculator.Descent.analyse` — the analysis of a list of tokens.

Main results

* `Calculator.Descent.bind_of_ok`, `Calculator.Descent.bind_of_error` — a routine goes on where the
  one before it ended, unless that stopped;
* `Calculator.Descent.enter_run_of_lt`, `Calculator.Descent.enter_run_of_le`,
  `Calculator.Descent.leave_run` — levels are entered up to the bound, and what was entered can be
  left.
-/

import Calculator.Expr.Parse

set_option autoImplicit false

namespace Calculator.Descent

/-! ### Runs -/

/-- Where an analysis stands. -/
structure Cursor where
  /-- The place of the next token. -/
  pos : Nat
  /-- How many parentheses, calls and minus signs have been entered and not left. -/
  depth : Nat
deriving DecidableEq, Repr

/-- Why an analysis stops. -/
inductive Stop where
  /-- The tokens are refused. -/
  | refused (e : SyntaxError)
  /-- A level was left that had not been entered. -/
  | underflow
  /-- There was no level left to call. -/
  | exhausted
deriving DecidableEq, Repr

/-- What comes of running a routine. -/
structure Run (α : Type) where
  /-- What the routine returns, or why the analysis stops. -/
  result : Except Stop α
  /-- Where the cursor stands in the end. -/
  cursor : Cursor
  /-- Every cursor that was moved to, in order. -/
  moments : List Cursor

/-- A routine: run from a cursor, it moves the cursor and returns something. -/
def Routine (α : Type) := Cursor → Run α

section Routines

variable {α β : Type}

/-- The routine that returns a value and moves nothing. -/
def give (a : α) : Routine α := fun c => ⟨.ok a, c, []⟩

/-- The routine that stops the analysis. -/
def halt (e : Stop) : Routine α := fun c => ⟨.error e, c, []⟩

/-- One routine after another; what stops the first one stops both. -/
def andThen (m : Routine α) (next : α → Routine β) : Routine β := fun c =>
  match m c with
  | ⟨.ok a, c', moments⟩ =>
      let r := next a c'
      ⟨r.result, r.cursor, moments ++ r.moments⟩
  | ⟨.error e, c', moments⟩ => ⟨.error e, c', moments⟩

instance : Monad Routine where
  pure := give
  bind := andThen

/-- A routine goes on where the one before it ended. -/
theorem bind_of_ok {m : Routine α} {next : α → Routine β} {c c' : Cursor} {a : α}
    {moments : List Cursor} (h : m c = ⟨.ok a, c', moments⟩) :
    (m >>= next) c = ⟨(next a c').result, (next a c').cursor, moments ++ (next a c').moments⟩ := by
  change andThen m next c = _
  simp only [andThen, h]

/-- A routine does not go on when the one before it stopped. -/
theorem bind_of_error {m : Routine α} {next : α → Routine β} {c c' : Cursor} {e : Stop}
    {moments : List Cursor} (h : m c = ⟨.error e, c', moments⟩) :
    (m >>= next) c = ⟨.error e, c', moments⟩ := by
  change andThen m next c = _
  simp only [andThen, h]

end Routines

/-! ### Moving the cursor -/

/-- Refuses the tokens. -/
def refuse {α : Type} (e : SyntaxError) : Routine α := halt (.refused e)

/-- Where the cursor stands. -/
def here : Routine Cursor := fun c => give c c

/-- Moves the cursor.  Nothing else does. -/
def moveTo (c' : Cursor) : Routine Unit := fun _ => ⟨.ok (), c', [c']⟩

/-- The token at the cursor. -/
def current (ts : List Token) : Routine (Option Token) := do
  let c ← here
  return ts[c.pos]?

/-- Moves on to the next place, past the end as well. -/
def skip : Routine Unit := do
  let c ← here
  moveTo ⟨c.pos + 1, c.depth⟩

/-- The token at the cursor, moving on. -/
def advance (ts : List Token) : Routine (Option Token) := do
  let t ← current ts
  skip
  return t

/-- Enters a level, which is counted before it is refused. -/
def enter : Routine Unit := do
  let c ← here
  moveTo ⟨c.pos, c.depth + 1⟩
  if c.depth + 1 ≤ maxNesting then return () else refuse .tooDeep

/-- Leaves a level. -/
def leave : Routine Unit := do
  let c ← here
  if c.depth = 0 then halt .underflow else moveTo ⟨c.pos, c.depth - 1⟩

theorem current_run (ts : List Token) (c : Cursor) : current ts c = ⟨.ok ts[c.pos]?, c, []⟩ := rfl

theorem skip_run (pos depth : Nat) :
    skip ⟨pos, depth⟩ = ⟨.ok (), ⟨pos + 1, depth⟩, [⟨pos + 1, depth⟩]⟩ := rfl

theorem advance_run (ts : List Token) (pos depth : Nat) :
    advance ts ⟨pos, depth⟩ = ⟨.ok ts[pos]?, ⟨pos + 1, depth⟩, [⟨pos + 1, depth⟩]⟩ := rfl

/-- A level that is not too deep is entered. -/
theorem enter_run_of_lt {pos depth : Nat} (h : depth < maxNesting) :
    enter ⟨pos, depth⟩ = ⟨.ok (), ⟨pos, depth + 1⟩, [⟨pos, depth + 1⟩]⟩ := by
  change (moveTo ⟨pos, depth + 1⟩ >>= fun _ =>
    if depth + 1 ≤ maxNesting then pure () else refuse .tooDeep) ⟨pos, depth⟩ = _
  rw [if_pos (Nat.succ_le_of_lt h)]
  rfl

/-- A level that is too deep is counted and refused. -/
theorem enter_run_of_le {pos depth : Nat} (h : maxNesting ≤ depth) :
    enter ⟨pos, depth⟩ =
      ⟨.error (.refused .tooDeep), ⟨pos, depth + 1⟩, [⟨pos, depth + 1⟩]⟩ := by
  change (moveTo ⟨pos, depth + 1⟩ >>= fun _ =>
    if depth + 1 ≤ maxNesting then pure () else refuse .tooDeep) ⟨pos, depth⟩ = _
  rw [if_neg (by omega)]
  rfl

/-- A level that has been entered can be left. -/
theorem leave_run (pos depth : Nat) :
    leave ⟨pos, depth + 1⟩ = ⟨.ok (), ⟨pos, depth⟩, [⟨pos, depth⟩]⟩ := rfl

/-! ### The routines -/

/-- A tree that is being built, with its height as it was counted. -/
structure Counted where
  /-- The tree. -/
  expr : Expr
  /-- Its height. -/
  height : Nat
deriving DecidableEq, Repr

/-- A node above trees of height `below`, unless it is too high. -/
def node (e : Expr) (below : Nat) : Routine Counted :=
  if below + 1 ≤ maxHeight then return ⟨e, below + 1⟩ else refuse .tooDeep

/-- What a marker makes of the operand before it. -/
def marker? : Token → Option (Expr → Expr)
  | .square => some .square
  | .percent => some .percent
  | _ => none

section Levels

variable (ts : List Token)

/-- Square and percent markers after an operand. -/
def postfixes (x : Counted) : Routine Counted := do
  let t ← current ts
  match t.bind marker? with
  | none => return x
  | some mark =>
      if x.height + 1 ≤ maxHeight then do
        skip
        postfixes ⟨mark x.expr, x.height + 1⟩
      else refuse .tooDeep
termination_by maxHeight - x.height

/-- Operators of one level with their right operands, gathered to the left. -/
def chain (op? : Token → Option BinOp) (operand : Routine Counted) (left : Counted) :
    Routine Counted := do
  let t ← current ts
  match t.bind op? with
  | none => return left
  | some op =>
      skip
      let right ← operand
      if max left.height right.height + 1 ≤ maxHeight then
        chain op? operand
          ⟨.binary op left.expr right.expr, max left.height right.height + 1⟩
      else refuse .tooDeep
termination_by maxHeight - left.height

/-- A chain of operands of one level. -/
def chained (op? : Token → Option BinOp) (operand : Routine Counted) : Routine Counted := do
  let left ← operand
  chain ts op? operand left

/-- A product, given the routine for its factors. -/
def product (unary : Routine Counted) : Routine Counted := chained ts BinOp.multiplicative? unary

/-- A sum, given the routine for its factors. -/
def sum (unary : Routine Counted) : Routine Counted :=
  chained ts BinOp.additive? (product ts unary)

/-- What follows an opening parenthesis, up to the closing one. -/
def group (inner : Routine Counted) : Routine Counted := do
  enter
  let x ← sum ts inner
  match ← advance ts with
  | some .rightParen => do
      leave
      return x
  | _ => refuse .unclosedParen

/-- A number, a constant, a group, or a function with its argument. -/
def primary (inner : Routine Counted) : Routine Counted := do
  match ← advance ts with
  | some (.number text) => return ⟨.literal text, 1⟩
  | some (.constant k) => return ⟨.constant k, 1⟩
  | some .leftParen => group ts inner
  | some (.function f) => do
      match ← advance ts with
      | some .leftParen => do
          let x ← group ts inner
          node (.call f x.expr) x.height
      | _ => refuse .unclosedParen
  | _ => refuse .unexpectedToken

/-- A primary expression with the markers after it. -/
def power (inner : Routine Counted) : Routine Counted := do
  let x ← primary ts inner
  postfixes ts x

/-- A unary expression, given the routine for unary expressions that is called inside. -/
def unaryAbove (inner : Routine Counted) : Routine Counted := do
  match ← current ts with
  | some .minus => do
      skip
      enter
      let x ← inner
      leave
      node (.neg x.expr) x.height
  | _ => power ts inner

/-- The routine for unary expressions, with as many levels of itself to call inside. -/
def unary : Nat → Routine Counted
  | 0 => halt .exhausted
  | levels + 1 => unaryAbove ts (unary levels)

/-- The names of the six routines. -/
inductive Name where
  | sum
  | product
  | unary
  | power
  | primary
  | group
deriving DecidableEq, Repr

/-- The routine of a name, with as many levels of unary expressions to call inside. -/
def routine (levels : Nat) : Name → Routine Counted
  | .sum => sum ts (unary ts levels)
  | .product => product ts (unary ts levels)
  | .unary => unary ts levels
  | .power => power ts (unary ts levels)
  | .primary => primary ts (unary ts levels)
  | .group => group ts (unary ts levels)

/-! ### Whole expressions -/

/-- A sum with nothing behind it. -/
def whole (levels : Nat) : Routine Expr := do
  let x ← routine ts levels .sum
  match ← current ts with
  | none => return x.expr
  | some .rightParen => refuse .unclosedParen
  | some _ => refuse .unexpectedToken

/-- The analysis of a list of tokens, with as many levels of unary expressions to call inside. -/
def analyse (levels : Nat) : Run Expr :=
  if ts.isEmpty then halt (.refused .emptyExpression) ⟨0, 0⟩ else whole ts levels ⟨0, 0⟩

end Levels

end Calculator.Descent
