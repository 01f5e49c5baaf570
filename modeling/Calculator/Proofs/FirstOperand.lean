/-
**Replacing the first operand.**

A reader goes on after an operand without looking back at it: what it makes of the tokens behind
depends on the operand's height alone, and the value of the whole on the operand's value.  So the
tokens at the front may be replaced by others that form a unary expression of the same height and
value, and neither the value nor any error changes.

A number is such an operand, and so is the same number in parentheses.  A number with a minus sign
in front is one too, but the markers behind it belong to the number and not to its opposite.  For
percent signs that makes no difference, since negation commutes with a division; for a square it
does.

Main definitions

* `Calculator.Expr.marked` — an expression with markers after it;
* `Calculator.Operand.Agrees`, `Calculator.Agree` — operands, and outcomes of a reader, that differ
  in the shape of the tree at most.

Main results

* `Calculator.agree_sum` — outcomes that agree on the first operand agree on the whole sum;
* `Calculator.map_fold_ofTokens_append` — replacing the first operand;
* `Calculator.map_fold_ofTokens_number`, `Calculator.map_fold_ofTokens_minus_number`,
  `Calculator.map_fold_ofTokens_minus` — a number, a number behind a minus sign, and the two
  together may be put in parentheses.
-/

import Calculator.Expr.Value
import Calculator.Proofs.DoubleSign
import Calculator.Proofs.Reading
import Mathlib.Data.List.TakeWhile

set_option autoImplicit false

namespace Calculator

/-! ### Markers -/

namespace Expr

/-- An expression with markers after it. -/
def marked : Expr → List Token → Expr
  | e, .square :: ts => (Expr.square e).marked ts
  | e, .percent :: ts => (Expr.percent e).marked ts
  | e, _ => e

theorem height_marked {ms : List Token} (h : ∀ t ∈ ms, t.isMarker) (e : Expr) :
    (e.marked ms).height = e.height + ms.length := by
  induction ms generalizing e with
  | nil => rfl
  | cons t ms ih =>
      obtain ⟨ht, hms⟩ := List.forall_mem_cons.1 h
      cases t with
      | square | percent =>
          rw [marked, ih hms, height, List.length_cons]
          omega
      | _ => cases ht

/-- The value of an expression with markers depends on the value of the expression. -/
theorem fold_marked_congr {x y : Expr} (h : x.fold = y.fold) (ms : List Token) :
    (x.marked ms).fold = (y.marked ms).fold := by
  induction ms generalizing x y with
  | nil => exact h
  | cons t ms ih =>
      cases t with
      | square => exact ih (by rw [fold, fold, h])
      | percent => exact ih (by rw [fold, fold, h])
      | _ => exact h

/-- The opposite of a hundredth is the hundredth of the opposite. -/
theorem fold_neg_percent (x : Expr) : (neg (percent x)).fold = (percent (neg x)).fold := by
  simp only [fold]
  cases x.fold with
  | error e => rfl
  | ok v => exact congrArg Except.ok (Double.neg_div v 100)

/-- Percent signs may be applied before or after a minus sign. -/
theorem fold_neg_marked {ms : List Token} (hmarkers : ∀ t ∈ ms, t.isMarker)
    (hsquare : .square ∉ ms) (x : Expr) : (neg (x.marked ms)).fold = ((neg x).marked ms).fold := by
  induction ms generalizing x with
  | nil => rfl
  | cons t ms ih =>
      obtain ⟨ht, hms⟩ := List.forall_mem_cons.1 hmarkers
      rw [List.mem_cons, not_or] at hsquare
      cases t with
      | square => exact absurd rfl hsquare.1
      | percent =>
          calc (neg ((percent x).marked ms)).fold
              = ((neg (percent x)).marked ms).fold := ih hms hsquare.2 _
            _ = ((percent (neg x)).marked ms).fold := fold_marked_congr (fold_neg_percent x) ms
      | _ => cases ht

end Expr

/-- Markers after a power make a power. -/
theorem Derives.marked {n : Nat} {ts : List Token} {e : Expr} (h : Derives .power n ts e)
    {ms : List Token} (hms : ∀ t ∈ ms, t.isMarker) :
    Derives .power n (ts ++ ms) (e.marked ms) := by
  induction ms generalizing ts e with
  | nil => simpa [Expr.marked] using h
  | cons t ms ih =>
      obtain ⟨ht, htail⟩ := List.forall_mem_cons.1 hms
      cases t with
      | square => simpa [Expr.marked] using ih h.square htail
      | percent => simpa [Expr.marked] using ih h.percent htail
      | _ => cases ht

/-! ### Outcomes that agree -/

/-- Two operands that differ in the shape of their trees at most. -/
structure Operand.Agrees (x y : Operand) : Prop where
  fold : x.expr.fold = y.expr.fold
  height : x.height = y.height
  rest : x.rest = y.rest

/-- Two outcomes of a reader that are the same error, or operands that agree. -/
inductive Agree : Except SyntaxError Operand → Except SyntaxError Operand → Prop
  | error (e : SyntaxError) : Agree (.error e) (.error e)
  | ok {x y : Operand} (h : x.Agrees y) : Agree (.ok x) (.ok y)

section Agree

variable {bound : Nat} {ts us : List Token}

theorem Agree.bind {r r' : Except SyntaxError Operand}
    {next next' : Operand → Except SyntaxError Operand} (h : Agree r r')
    (hnext : ∀ x y, x.Agrees y → Agree (next x) (next' y)) : Agree (r >>= next) (r' >>= next') := by
  cases h with
  | error e => exact .error e
  | ok h => exact hnext _ _ h

/-- A chain goes on alike from operands that agree. -/
theorem agree_chain {op? : Token → Option BinOp} {operand : Reader} {left left' : Operand}
    (h : left.Agrees left') :
    Agree (chain bound op? operand left) (chain bound op? operand left') := by
  induction left using chain.induct bound op? generalizing left' with
  | case1 left hrest =>
      rw [chain_of_end (by simp [hrest]), chain_of_end (by simp [← h.rest, hrest])]
      exact .ok h
  | case2 left t rest hrest ht =>
      rw [chain_of_end (by simp [hrest, ht]), chain_of_end (by simp [← h.rest, hrest, ht])]
      exact .ok h
  | case3 left t rest hrest op ht ih =>
      obtain ⟨e, height, rest'⟩ := left
      obtain ⟨e', height', rest''⟩ := left'
      obtain ⟨hfold, rfl, rfl⟩ := h
      cases hrest
      rw [chain_of_operator ht, chain_of_operator ht]
      -- the tokens behind are the same, so the right operand is too
      cases operand rest with
      | error e => exact .error e
      | ok right =>
          simp only [ok_bind]
          split
          · refine ih right ‹_› ⟨?_, rfl, rfl⟩
            simp only [Expr.fold, hfold]
          · exact .error .tooDeep

theorem agree_chained {op? : Token → Option BinOp} {operand : Reader}
    (h : Agree (operand ts) (operand us)) :
    Agree (chained bound op? operand ts) (chained bound op? operand us) :=
  h.bind fun _ _ => agree_chain

/-- Outcomes that agree on the first operand agree on the whole sum. -/
theorem agree_sum {unary : Reader} (h : Agree (unary ts) (unary us)) :
    Agree (sum bound unary ts) (sum bound unary us) :=
  agree_chained (agree_chained h)

/-- The value of a whole expression, or the error, is that of any outcome that agrees. -/
theorem map_fold_ofTokensWithin {nesting : Nat} (hts : ts ≠ []) (hus : us ≠ [])
    (h : Agree (sum bound (unary bound (nesting + 1)) ts)
      (sum bound (unary bound (nesting + 1)) us)) :
    (Expr.ofTokensWithin bound nesting ts).map Expr.fold =
      (Expr.ofTokensWithin bound nesting us).map Expr.fold := by
  have htsEmpty : ts.isEmpty = false := by simpa using hts
  have husEmpty : us.isEmpty = false := by simpa using hus
  simp only [Expr.ofTokensWithin, htsEmpty, husEmpty, Bool.false_eq_true, if_false]
  revert h
  generalize sum bound (unary bound (nesting + 1)) ts = r
  generalize sum bound (unary bound (nesting + 1)) us = r'
  intro h
  cases h with
  | error e => rfl
  | @ok x y h =>
      simp only [ok_bind, h.rest]
      split
      · exact congrArg Except.ok h.fold
      · rfl
      · rfl

end Agree

/-! ### The first operand -/

/-- **The first operand may be replaced** by one of the same height and value: tokens that begin
with the one or the other have the same value, or the same error. -/
theorem map_fold_ofTokens_append {m n : Nat} {ts us rest : List Token} {x y : Expr}
    (hx : Derives .unary m ts x) (hy : Derives .unary n us y) (hm : m ≤ maxNesting)
    (hn : n ≤ maxNesting) (hfold : x.fold = y.fold) (hheight : x.height = y.height)
    (hrest : ∀ t ∈ rest.head?, t.isMarker = false) :
    (Expr.ofTokens (ts ++ rest)).map Expr.fold = (Expr.ofTokens (us ++ rest)).map Expr.fold := by
  have hbound : 0 < maxHeight := by decide
  refine map_fold_ofTokensWithin (by simp [hx.ne_nil]) (by simp [hy.ne_nil]) (agree_sum ?_)
  rw [hx.reads hbound (maxNesting + 1) rest hrest, hy.reads hbound (maxNesting + 1) rest hrest]
  by_cases hhigh : x.height ≤ maxHeight
  · rw [limited_of_le (by omega) hhigh, limited_of_le (by omega) (hheight ▸ hhigh)]
    exact .ok ⟨hfold, hheight, rfl⟩
  · rw [limited_of_not (by omega), limited_of_not (by omega)]
    exact .error .tooDeep

section Markers

variable (text : String) (ts : List Token)

/-- After the markers at the front there is none. -/
theorem isMarker_of_head?_dropWhile :
    ∀ t ∈ (ts.dropWhile Token.isMarker).head?, t.isMarker = false := by
  intro t ht
  have hnot := List.head?_dropWhile_not Token.isMarker ts
  rw [ht] at hnot
  simpa using hnot

theorem isMarker_of_mem_takeWhile : ∀ t ∈ ts.takeWhile Token.isMarker, t.isMarker :=
  fun _ => List.mem_takeWhile_imp

theorem derives_number : Derives .power 0 [.number text] (.literal text) :=
  .ofPrimary (.number text)

theorem derives_number_group :
    Derives .power 1 [.leftParen, .number text, .rightParen] (.literal text) :=
  .ofPrimary (.group (.ofProduct (.ofUnary (.ofPower (derives_number text)))))

theorem derives_minus_group :
    Derives .power 2 [.leftParen, .minus, .number text, .rightParen] (.neg (.literal text)) :=
  .ofPrimary (.group (.ofProduct (.ofUnary (.neg (.ofPower (derives_number text))))))

/-- A number at the front may be put in parentheses. -/
theorem map_fold_ofTokens_number :
    (Expr.ofTokens (.number text :: ts)).map Expr.fold =
      (Expr.ofTokens (.leftParen :: .number text :: .rightParen :: ts)).map Expr.fold := by
  have hms := isMarker_of_mem_takeWhile ts
  have h := map_fold_ofTokens_append (.ofPower ((derives_number text).marked hms))
    (.ofPower ((derives_number_group text).marked hms)) (by decide) (by decide) rfl rfl
    (isMarker_of_head?_dropWhile ts)
  simpa [List.takeWhile_append_dropWhile] using h

/-- A number behind a minus sign at the front may be put in parentheses. -/
theorem map_fold_ofTokens_minus_number :
    (Expr.ofTokens (.minus :: .number text :: ts)).map Expr.fold =
      (Expr.ofTokens (.minus :: .leftParen :: .number text :: .rightParen :: ts)).map
        Expr.fold := by
  have hms := isMarker_of_mem_takeWhile ts
  have h := map_fold_ofTokens_append (.neg (.ofPower ((derives_number text).marked hms)))
    (.neg (.ofPower ((derives_number_group text).marked hms))) (by decide) (by decide) rfl rfl
    (isMarker_of_head?_dropWhile ts)
  simpa [List.takeWhile_append_dropWhile] using h

/-- The opposite of a number at the front may be put in parentheses if no square marker directly
follows. -/
theorem map_fold_ofTokens_minus (hsquare : .square ∉ ts.takeWhile Token.isMarker) :
    (Expr.ofTokens (.minus :: .number text :: ts)).map Expr.fold =
      (Expr.ofTokens (.leftParen :: .minus :: .number text :: .rightParen :: ts)).map
        Expr.fold := by
  have hms := isMarker_of_mem_takeWhile ts
  -- on the left the markers belong to the number, on the right to its opposite
  have hheight : (Expr.neg ((Expr.literal text).marked (ts.takeWhile Token.isMarker))).height =
      ((Expr.neg (.literal text)).marked (ts.takeWhile Token.isMarker)).height := by
    simp only [Expr.height, Expr.height_marked hms]
    omega
  have h := map_fold_ofTokens_append (.neg (.ofPower ((derives_number text).marked hms)))
    (.ofPower ((derives_minus_group text).marked hms)) (by decide) (by decide)
    (Expr.fold_neg_marked hms hsquare _) hheight (isMarker_of_head?_dropWhile ts)
  simpa [List.takeWhile_append_dropWhile] using h

end Markers

end Calculator
