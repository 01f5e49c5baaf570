/-
**Tokens that end inside a group.**

A group is read as a sum and a closing parenthesis.  When the sum is complete and something else
follows, or nothing at all, the group is refused as unclosed.  This module says which tokens lead a
reader into such a place, by rules like those of the grammar: they open a group, form a complete sum
inside it, and leave it open.  What the readers make of them, when no operator and no parenthesis
follows that would go on with the sum or close the group, is settled by the bounds alone.

Main definitions

* `Calculator.Opened` — the tokens that end inside a group, behind a complete sum;
* `Calculator.StartsOperand` — what follows neither goes on with a sum nor closes a group.

Main results

* `Calculator.Derives.count_eq` — an expression closes as many parentheses as it opens;
* `Calculator.Opened.count_lt` — what ends inside a group leaves parentheses open;
* `Calculator.Opened.refuses` — the group is refused as unclosed, or as too deep beyond the bounds.
-/

import Calculator.Proofs.Reading

set_option autoImplicit false

namespace Calculator

/-! ### Open groups -/

/-- `Opened c n h ts` says that the tokens `ts` start an expression of the level `c`, end inside a
group that they open, and form a complete sum in the innermost one.  They nest `n` deep, and the
trees that are complete within them are at most `h` high. -/
inductive Opened : Category → Nat → Nat → List Token → Prop
  | group {n : Nat} {ts : List Token} {e : Expr} : Derives .sum n ts e →
      Opened .primary (n + 1) e.height (.leftParen :: ts)
  | call (f : Function) {n : Nat} {ts : List Token} {e : Expr} : Derives .sum n ts e →
      Opened .primary (n + 1) e.height (.function f :: .leftParen :: ts)
  | inGroup {n h : Nat} {ts : List Token} : Opened .sum n h ts →
      Opened .primary (n + 1) h (.leftParen :: ts)
  | inCall (f : Function) {n h : Nat} {ts : List Token} : Opened .sum n h ts →
      Opened .primary (n + 1) h (.function f :: .leftParen :: ts)
  | ofPrimary {n h : Nat} {ts : List Token} : Opened .primary n h ts → Opened .power n h ts
  | ofPower {n h : Nat} {ts : List Token} : Opened .power n h ts → Opened .unary n h ts
  | neg {n h : Nat} {ts : List Token} : Opened .unary n h ts →
      Opened .unary (n + 1) h (.minus :: ts)
  | ofUnary {n h : Nat} {ts : List Token} : Opened .unary n h ts → Opened .product n h ts
  | multiply {op : BinOp} {t : Token} {m n h : Nat} {ts us : List Token} {x : Expr} :
      BinOp.multiplicative? t = some op → Derives .product m ts x → Opened .unary n h us →
      Opened .product (max m n) (max x.height h) (ts ++ t :: us)
  | ofProduct {n h : Nat} {ts : List Token} : Opened .product n h ts → Opened .sum n h ts
  | add {op : BinOp} {t : Token} {m n h : Nat} {ts us : List Token} {x : Expr} :
      BinOp.additive? t = some op → Derives .sum m ts x → Opened .product n h us →
      Opened .sum (max m n) (max x.height h) (ts ++ t :: us)

/-- Whether a token can only be the first one of an operand. -/
def Token.opensOperand : Token → Bool
  | .number _ => true
  | .constant _ => true
  | .leftParen => true
  | .function _ => true
  | _ => false

/-- There is nothing left, or an operand starts. -/
def StartsOperand (rest : List Token) : Prop := ∀ t ∈ rest.head?, t.opensOperand

/-! ### Parentheses -/

/-- An operator is no parenthesis. -/
theorem BinOp.ne_paren_of_multiplicative? {t : Token} {op : BinOp}
    (h : BinOp.multiplicative? t = some op) : t ≠ .leftParen ∧ t ≠ .rightParen := by
  constructor <;> (rintro rfl; cases h)

theorem BinOp.ne_paren_of_additive? {t : Token} {op : BinOp}
    (h : BinOp.additive? t = some op) : t ≠ .leftParen ∧ t ≠ .rightParen := by
  constructor <;> (rintro rfl; cases h)

/-- An expression closes as many parentheses as it opens. -/
theorem Derives.count_eq {c : Category} {n : Nat} {ts : List Token} {e : Expr}
    (h : Derives c n ts e) : ts.count .rightParen = ts.count .leftParen := by
  induction h with
  | number => rfl
  | constant => rfl
  | group _ ih => simp [ih]
  | call _ _ ih => simp [ih]
  | square _ ih => simp [ih]
  | percent _ ih => simp [ih]
  | neg _ ih => simp [ih]
  | ofPrimary _ ih => exact ih
  | ofPower _ ih => exact ih
  | ofUnary _ ih => exact ih
  | ofProduct _ ih => exact ih
  | multiply hop _ _ ihx ihy =>
      obtain ⟨hleft, hright⟩ := BinOp.ne_paren_of_multiplicative? hop
      simp [hleft, hright, ihx, ihy]
  | add hop _ _ ihx ihy =>
      obtain ⟨hleft, hright⟩ := BinOp.ne_paren_of_additive? hop
      simp [hleft, hright, ihx, ihy]

namespace Opened

variable {c : Category} {n h : Nat} {ts : List Token}

/-- What ends inside a group opens more parentheses than it closes. -/
theorem count_lt (ho : Opened c n h ts) : ts.count .rightParen < ts.count .leftParen := by
  induction ho with
  | group hd => simp [hd.count_eq]
  | call _ hd => simp [hd.count_eq]
  | inGroup _ ih => simpa using Nat.lt_succ_of_lt ih
  | inCall _ _ ih => simpa using Nat.lt_succ_of_lt ih
  | neg _ ih => simpa using ih
  | ofPrimary _ ih => exact ih
  | ofPower _ ih => exact ih
  | ofUnary _ ih => exact ih
  | ofProduct _ ih => exact ih
  | multiply hop hd _ ih =>
      obtain ⟨hleft, hright⟩ := BinOp.ne_paren_of_multiplicative? hop
      simpa [hleft, hright, hd.count_eq] using ih
  | add hop hd _ ih =>
      obtain ⟨hleft, hright⟩ := BinOp.ne_paren_of_additive? hop
      simpa [hleft, hright, hd.count_eq] using ih

/-- Only a unary expression, or a looser one, starts with a minus sign. -/
theorem exists_cons_ne_minus (ho : Opened c n h ts) (hc : c = .power ∨ c = .primary) :
    ∃ t us, ts = t :: us ∧ t ≠ .minus := by
  induction ho with
  | group | call | inGroup | inCall => exact ⟨_, _, rfl, by simp⟩
  | ofPrimary _ ih => exact ih (.inr rfl)
  | ofPower | neg | ofUnary | multiply | ofProduct | add => simp at hc

end Opened

/-! ### Refusals -/

/-- The refusal of a group that is left open, or of the nesting and the trees in front of it. -/
def refusal (bound depth nesting height : Nat) : Except SyntaxError Operand :=
  if nesting < depth ∧ height ≤ bound then .error .unclosedParen else .error .tooDeep

/-- What is refused is not gone on with. -/
theorem refusal_bind (bound depth nesting height : Nat)
    (next : Operand → Except SyntaxError Operand) :
    (refusal bound depth nesting height >>= next) = refusal bound depth nesting height := by
  unfold refusal
  split <;> rfl

@[simp] theorem refusal_zero (bound nesting height : Nat) :
    refusal bound 0 nesting height = .error .tooDeep := if_neg (by omega)

/-- What is nested one level deeper. -/
theorem refusal_succ (bound depth nesting height : Nat) :
    refusal bound (depth + 1) (nesting + 1) height = refusal bound depth nesting height := by
  simp [refusal]

/-- A refusal behind a complete expression. -/
theorem limited_refusal (bound depth m n height : Nat) (x : Expr) :
    limited bound depth m x (refusal bound depth n height) =
      refusal bound depth (max m n) (max x.height height) := by
  have key : (m < depth ∧ x.height ≤ bound) ∧ n < depth ∧ height ≤ bound ↔
      max m n < depth ∧ max x.height height ≤ bound := by
    omega
  simp only [limited, refusal, ← key, ite_and]

/-- What the reader of a level makes of tokens that end inside a group, if nothing or an operand
comes after them. -/
def Refuses (bound nesting height : Nat) (ts : List Token) : Category → Prop
  | .primary => ∀ depth rest, StartsOperand rest →
      primary bound (unary bound depth) (ts ++ rest) = refusal bound (depth + 1) nesting height
  | .power => ∀ depth rest, StartsOperand rest →
      power bound (unary bound depth) (ts ++ rest) = refusal bound (depth + 1) nesting height
  | .unary => ∀ depth rest, StartsOperand rest →
      unary bound depth (ts ++ rest) = refusal bound depth nesting height
  | .product => ∀ depth rest, StartsOperand rest →
      product bound (unary bound depth) (ts ++ rest) = refusal bound depth nesting height
  | .sum => ∀ depth rest, StartsOperand rest →
      sum bound (unary bound depth) (ts ++ rest) = refusal bound depth nesting height

section Refuses

variable {bound m n h : Nat} {ts us rest : List Token} {e x : Expr} {op : BinOp} {t : Token}

/-- An operand does not go on with the expression before it. -/
theorem StartsOperand.ends (hrest : StartsOperand rest) :
    (∀ t ∈ rest.head?, t.isMarker = false) ∧ (∀ t ∈ rest.head?, BinOp.multiplicative? t = none) ∧
      ∀ t ∈ rest.head?, BinOp.additive? t = none := by
  refine ⟨fun t ht => ?_, fun t ht => ?_, fun t ht => ?_⟩ <;>
  · have hopens := hrest t ht
    cases t <;> first | rfl | cases hopens

/-- A complete sum that is not followed by a closing parenthesis leaves its group open. -/
theorem group_of_derives (hb : 0 < bound) (hd : Derives .sum n ts e) (hrest : StartsOperand rest)
    (depth : Nat) :
    group bound (unary bound depth) (ts ++ rest) = refusal bound depth n e.height := by
  obtain ⟨hmarker, hmul, hadd⟩ := hrest.ends
  rw [group, hd.reads hb depth rest hmarker hmul, chain_of_end hadd, limited_bind]
  cases rest with
  | nil => rfl
  | cons t rest =>
      have hopens := hrest t rfl
      cases t <;> first | rfl | cases hopens

/-- A group that holds an open one is left open. -/
theorem group_of_refuses (ih : Refuses bound n h ts .sum) (hrest : StartsOperand rest)
    (depth : Nat) : group bound (unary bound depth) (ts ++ rest) = refusal bound depth n h := by
  rw [group, ih depth rest hrest, refusal_bind]

/-- An open group refuses the primary expression that it is. -/
theorem refuses_group (hgroup : ∀ depth rest, StartsOperand rest →
      group bound (unary bound depth) (ts ++ rest) = refusal bound depth n h) :
    Refuses bound (n + 1) h (.leftParen :: ts) .primary := by
  intro depth rest hrest
  rw [refusal_succ, ← hgroup depth rest hrest]
  rfl

/-- An open group refuses the call that it is the argument of. -/
theorem refuses_call (hgroup : ∀ depth rest, StartsOperand rest →
      group bound (unary bound depth) (ts ++ rest) = refusal bound depth n h) (f : Function) :
    Refuses bound (n + 1) h (.function f :: .leftParen :: ts) .primary := by
  intro depth rest hrest
  calc primary bound (unary bound depth) (.function f :: .leftParen :: ts ++ rest)
      = group bound (unary bound depth) (ts ++ rest) >>=
          fun x => node bound (.call f x.expr) x.height x.rest := rfl
    _ = refusal bound (depth + 1) (n + 1) h := by
        rw [hgroup depth rest hrest, refusal_bind, refusal_succ]

theorem refuses_ofPrimary (ih : Refuses bound n h ts .primary) : Refuses bound n h ts .power := by
  intro depth rest hrest
  rw [power, ih depth rest hrest, refusal_bind]

theorem refuses_ofPower (ih : Refuses bound n h ts .power)
    (hts : ∃ t us, ts = t :: us ∧ t ≠ .minus) : Refuses bound n h ts .unary := by
  intro depth rest hrest
  cases depth with
  | zero => rw [unary_zero, refusal_zero]
  | succ depth =>
      rw [← ih depth rest hrest]
      obtain ⟨t, us, rfl, ht⟩ := hts
      rw [unary, List.cons_append]
      cases t <;> first | rfl | exact absurd rfl ht

theorem refuses_neg (ih : Refuses bound n h ts .unary) :
    Refuses bound (n + 1) h (.minus :: ts) .unary := by
  intro depth rest hrest
  cases depth with
  | zero => rw [unary_zero, refusal_zero]
  | succ depth =>
      calc unary bound (depth + 1) (.minus :: ts ++ rest)
          = unary bound depth (ts ++ rest) >>=
              fun x => node bound (.neg x.expr) x.height x.rest := rfl
        _ = refusal bound (depth + 1) (n + 1) h := by
            rw [ih depth rest hrest, refusal_bind, refusal_succ]

theorem refuses_ofUnary (ih : Refuses bound n h ts .unary) : Refuses bound n h ts .product := by
  intro depth rest hrest
  rw [product, chained, ih depth rest hrest, refusal_bind]

theorem refuses_multiply (hb : 0 < bound) (hop : BinOp.multiplicative? t = some op)
    (hx : Derives .product m ts x) (ih : Refuses bound n h us .unary) :
    Refuses bound (max m n) (max x.height h) (ts ++ t :: us) .product := by
  intro depth rest hrest
  have ht : ∀ u ∈ (t :: (us ++ rest)).head?, u.isMarker = false := by
    simpa using BinOp.isMarker_of_multiplicative? hop
  rw [List.append_assoc, List.cons_append, hx.reads hb depth _ ht, chain_of_operator hop,
    ih depth rest hrest, refusal_bind, limited_refusal]

theorem refuses_ofProduct (ih : Refuses bound n h ts .product) : Refuses bound n h ts .sum := by
  intro depth rest hrest
  rw [sum, chained, ih depth rest hrest, refusal_bind]

theorem refuses_add (hb : 0 < bound) (hop : BinOp.additive? t = some op)
    (hx : Derives .sum m ts x) (ih : Refuses bound n h us .product) :
    Refuses bound (max m n) (max x.height h) (ts ++ t :: us) .sum := by
  intro depth rest hrest
  obtain ⟨htmul, htmarker⟩ := BinOp.multiplicative?_of_additive? hop
  rw [List.append_assoc, List.cons_append,
    hx.reads hb depth _ (by simpa using htmarker) (by simpa using htmul), chain_of_operator hop,
    ih depth rest hrest, refusal_bind, limited_refusal]

end Refuses

/-- Where tokens end inside a group, nothing is read: the group is refused as unclosed within the
bounds, and what is in front of it as too deep beyond them. -/
theorem Opened.refuses {bound : Nat} (hb : 0 < bound) {c : Category} {n h : Nat} {ts : List Token}
    (ho : Opened c n h ts) : Refuses bound n h ts c := by
  -- one rule of the definition, one step of a reader
  induction ho with
  | group hd => exact refuses_group fun depth rest hrest => group_of_derives hb hd hrest depth
  | call f hd => exact refuses_call (fun depth rest hrest => group_of_derives hb hd hrest depth) f
  | inGroup _ ih => exact refuses_group fun depth rest hrest => group_of_refuses ih hrest depth
  | inCall f _ ih =>
      exact refuses_call (fun depth rest hrest => group_of_refuses ih hrest depth) f
  | ofPrimary _ ih => exact refuses_ofPrimary ih
  | ofPower ho ih => exact refuses_ofPower ih (ho.exists_cons_ne_minus (.inl rfl))
  | neg _ ih => exact refuses_neg ih
  | ofUnary _ ih => exact refuses_ofUnary ih
  | multiply hop hx _ ih => exact refuses_multiply hb hop hx ih
  | ofProduct _ ih => exact refuses_ofProduct ih
  | add hop hx _ ih => exact refuses_add hb hop hx ih

end Calculator
