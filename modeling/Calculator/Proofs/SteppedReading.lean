/-
**The descent reads what the readers read.**

The six routines of `Calculator.Expr.Descent` move a cursor along the tokens, the readers of
`Calculator.Expr.Parse` hand the rest of the tokens on.  A routine at a place follows a reader of
the tokens from this place on: it comes to the same tree with the same height, at the place where
the reader's rest begins and at the depth at which it started, or to the same refusal.

The two bound the nesting in different ways.  The readers are built upwards from a refusal, as many
levels as the nesting is followed, while the routines count their depth and refuse to enter what is
too deep.  A routine at depth `d` therefore follows the reader for `maxNesting + 1 - d` levels, and
where this is the last one, the level that the routine refuses to enter is the level that the reader
below it refuses to read.  With more levels to call than the nesting needs, no routine runs out of
levels.

Main definitions

* `Calculator.Descent.Mirrors` — a run comes to what a reader makes of the tokens;
* `Calculator.Descent.Follows` — a routine at some depth comes everywhere to what a reader does;
* `Calculator.Descent.FollowsInside` — the same one level deeper, or a refusal below the last level.

Main results

* `Calculator.Descent.follows_unary` — the routine for unary expressions follows its reader;
* `Calculator.Descent.result_analyse` — the analysis comes to the expression that tokens form;
* `Calculator.Descent.bookkeeping_is_exact` — the books are kept in every call, no run is deeper
  than one level below the bound, and the analysis ends with the outcome of the readers.
-/

import Calculator.Proofs.Bookkeeping
import Calculator.Proofs.Reading

set_option autoImplicit false

namespace Calculator.Descent

/-! ### Runs and readers -/

/-- A run comes to what a reader makes of the tokens: to the same tree, where the reader's rest
begins and at the depth `depth`, or to the same refusal. -/
def Mirrors (ts : List Token) (depth : Nat) (r : Run Counted) : Except SyntaxError Operand → Prop
  | .ok x => r.result = .ok ⟨x.expr, x.height⟩ ∧ ts.drop r.cursor.pos = x.rest ∧
      r.cursor.depth = depth
  | .error e => r.result = .error (.refused e)

/-- From every place, at the depth `depth`, a routine comes to what a reader does. -/
def Follows (ts : List Token) (depth : Nat) (m : Routine Counted) (reader : Reader) : Prop :=
  ∀ pos, Mirrors ts depth (m ⟨pos, depth⟩) (reader (ts.drop pos))

section Mirrors

variable {ts us : List Token} {t : Token} {depth depth' pos : Nat}
  {o : Except SyntaxError Operand}

/-- What comes after a routine that moves the cursor and nothing more. -/
theorem Mirrors.after {α : Type} {m : Routine α} {next : α → Routine Counted} {c c' : Cursor}
    {a : α} {moments : List Cursor} (h : Mirrors ts depth (next a c') o)
    (hm : m c = ⟨.ok a, c', moments⟩) : Mirrors ts depth ((m >>= next) c) o := by
  rw [bind_of_ok hm]
  cases o <;> exact h

/-- What comes after a routine that follows a reader. -/
theorem Mirrors.bind {m : Routine Counted} {next : Counted → Routine Counted} {c : Cursor}
    {f : Operand → Except SyntaxError Operand} (h : Mirrors ts depth (m c) o)
    (hnext : ∀ x pos, ts.drop pos = x.rest →
      Mirrors ts depth' (next ⟨x.expr, x.height⟩ ⟨pos, depth⟩) (f x)) :
    Mirrors ts depth' ((m >>= next) c) (o >>= f) := by
  cases hm : m c with
  | mk result c' moments =>
      rw [hm] at h
      cases o with
      | error e =>
          obtain rfl : result = .error (.refused e) := h
          rw [bind_of_error hm, error_bind]
          rfl
      | ok x =>
          obtain ⟨rfl, hrest, rfl⟩ : result = .ok ⟨x.expr, x.height⟩ ∧ _ ∧ _ := h
          rw [ok_bind]
          exact (hnext x c'.pos hrest).after hm

theorem mirrors_refuse (e : SyntaxError) (c : Cursor) : Mirrors ts depth (refuse e c) (.error e) :=
  rfl

theorem mirrors_pure (h : ts.drop pos = us) (e : Expr) (height : Nat) :
    Mirrors ts depth ((pure ⟨e, height⟩ : Routine Counted) ⟨pos, depth⟩) (.ok ⟨e, height, us⟩) :=
  ⟨rfl, h, rfl⟩

theorem mirrors_node (h : ts.drop pos = us) (e : Expr) (below : Nat) :
    Mirrors ts depth (node e below ⟨pos, depth⟩) (Calculator.node maxHeight e below us) := by
  unfold node Calculator.node
  split
  · exact mirrors_pure h _ _
  · exact mirrors_refuse _ _

/-- The token at the cursor is the first one of the reader's tokens. -/
theorem getElem?_of_drop (h : ts.drop pos = us) : ts[pos]? = us.head? := by
  rw [← h, List.head?_drop]

theorem drop_succ_of_drop (h : ts.drop pos = t :: us) : ts.drop (pos + 1) = us := by
  rw [← List.tail_drop, h, List.tail_cons]

theorem mirrors_current {next : Option Token → Routine Counted} (h : ts.drop pos = us)
    (hnext : Mirrors ts depth (next us.head? ⟨pos, depth'⟩) o) :
    Mirrors ts depth ((current ts >>= next) ⟨pos, depth'⟩) o := by
  rw [← getElem?_of_drop h] at hnext
  exact hnext.after (current_run ts _)

theorem mirrors_skip {next : Unit → Routine Counted}
    (hnext : Mirrors ts depth (next () ⟨pos + 1, depth'⟩) o) :
    Mirrors ts depth ((skip >>= next) ⟨pos, depth'⟩) o :=
  hnext.after (skip_run pos depth')

theorem mirrors_advance {next : Option Token → Routine Counted} (h : ts.drop pos = us)
    (hnext : Mirrors ts depth (next us.head? ⟨pos + 1, depth'⟩) o) :
    Mirrors ts depth ((advance ts >>= next) ⟨pos, depth'⟩) o := by
  rw [← getElem?_of_drop h] at hnext
  exact hnext.after (advance_run ts pos depth')

/-- A level is entered, unless it is too deep. -/
theorem mirrors_enter {next : Unit → Routine Counted}
    (h : depth < maxNesting → Mirrors ts depth (next () ⟨pos, depth + 1⟩) o)
    (hdeep : maxNesting ≤ depth → o = .error .tooDeep) :
    Mirrors ts depth ((enter >>= next) ⟨pos, depth⟩) o := by
  rcases Nat.lt_or_ge depth maxNesting with hd | hd
  · exact (h hd).after (enter_run_of_lt hd)
  · rw [bind_of_error (enter_run_of_le hd), hdeep hd]
    rfl

theorem mirrors_leave {next : Unit → Routine Counted}
    (hnext : Mirrors ts depth (next () ⟨pos, depth'⟩) o) :
    Mirrors ts depth ((leave >>= next) ⟨pos, depth' + 1⟩) o :=
  hnext.after (leave_run pos depth')

end Mirrors

/-! ### The loops -/

section Loops

variable {ts us : List Token} {t : Token} {depth pos : Nat}

theorem isMarker_of_marker? (h : marker? t = none) : t.isMarker = false := by
  cases t <;> first | rfl | simp [marker?] at h

theorem postfixes_of_marker? {mark : Expr → Expr} (h : marker? t = some mark) (bound : Nat)
    (e : Expr) (height : Nat) :
    Calculator.postfixes bound e height (t :: us) =
      if height + 1 ≤ bound then Calculator.postfixes bound (mark e) (height + 1) us
      else .error .tooDeep := by
  cases t <;> simp [marker?] at h <;> subst h <;> rfl

theorem mirrors_postfixes (h : ts.drop pos = us) (e : Expr) (height : Nat) :
    Mirrors ts depth (postfixes ts ⟨e, height⟩ ⟨pos, depth⟩)
      (Calculator.postfixes maxHeight e height us) := by
  induction us generalizing pos e height with
  | nil =>
      rw [postfixes_of_end (by simp), postfixes]
      exact mirrors_current h (mirrors_pure h _ _)
  | cons t us ih =>
      rw [postfixes]
      refine mirrors_current h ?_
      cases hmark : marker? t with
      | none =>
          rw [postfixes_of_end (by simpa using isMarker_of_marker? hmark)]
          simp only [List.head?_cons, Option.bind_some, hmark]
          exact mirrors_pure h _ _
      | some mark =>
          rw [postfixes_of_marker? hmark]
          simp only [List.head?_cons, Option.bind_some, hmark]
          split
          · exact mirrors_skip (ih (drop_succ_of_drop h) _ _)
          · exact mirrors_refuse _ _

theorem mirrors_chain {op? : Token → Option BinOp} {m : Routine Counted} {reader : Reader}
    (hm : Follows ts depth m reader) {left : Operand} (h : ts.drop pos = left.rest) :
    Mirrors ts depth (chain ts op? m ⟨left.expr, left.height⟩ ⟨pos, depth⟩)
      (Calculator.chain maxHeight op? reader left) := by
  induction left using Calculator.chain.induct maxHeight op? generalizing pos with
  | case1 left hrest =>
      rw [chain_of_end (by simp [hrest]), chain]
      refine mirrors_current h ?_
      rw [hrest]
      exact mirrors_pure h _ _
  | case2 left t us hrest ht =>
      rw [chain_of_end (by simp [hrest, ht]), chain]
      refine mirrors_current h ?_
      simp only [hrest, List.head?_cons, Option.bind_some, ht]
      exact mirrors_pure h _ _
  | case3 left t us hrest op ht ih =>
      obtain ⟨e, height, rest⟩ := left
      obtain rfl : rest = t :: us := hrest
      rw [chain_of_operator ht, chain]
      refine mirrors_current h ?_
      simp only [List.head?_cons, Option.bind_some, ht]
      refine mirrors_skip ?_
      have hright := hm (pos + 1)
      rw [drop_succ_of_drop h] at hright
      refine hright.bind ?_
      intro right pos' hpos
      split
      · exact ih right ‹_› hpos
      · exact mirrors_refuse _ _

theorem follows_chained {op? : Token → Option BinOp} {m : Routine Counted} {reader : Reader}
    (h : Follows ts depth m reader) :
    Follows ts depth (chained ts op? m) (Calculator.chained maxHeight op? reader) := by
  intro pos
  refine (h pos).bind ?_
  intro left pos' hpos
  exact mirrors_chain h hpos

theorem follows_sum {m : Routine Counted} {reader : Reader} (h : Follows ts depth m reader) :
    Follows ts depth (sum ts m) (Calculator.sum maxHeight reader) :=
  follows_chained (follows_chained h)

end Loops

/-! ### The nesting -/

/-- What a routine at the depth `depth` may call inside: one that follows the reader one level
deeper, or, if this is too deep, anything in the place of the refusal. -/
structure FollowsInside (ts : List Token) (depth : Nat) (m : Routine Counted) (reader : Reader) :
    Prop where
  /-- A level that may be entered is followed. -/
  deeper : depth < maxNesting → Follows ts (depth + 1) m reader
  /-- Below the last level the reader refuses. -/
  deepest : maxNesting ≤ depth → ∀ us, reader us = .error .tooDeep

section Nesting

variable {ts us : List Token} {depth : Nat} {inner : Routine Counted} {reader : Reader}

theorem follows_group (h : FollowsInside ts depth inner reader) :
    Follows ts depth (group ts inner) (Calculator.group maxHeight reader) := by
  intro pos
  refine mirrors_enter ?_ ?_
  · intro hd
    refine ((follows_sum (h.deeper hd)) pos).bind ?_
    intro x pos' hpos
    refine mirrors_advance hpos ?_
    cases hrest : x.rest with
    | nil => exact mirrors_refuse _ _
    | cons t us =>
        rw [hrest] at hpos
        cases t with
        | rightParen => exact mirrors_leave (mirrors_pure (drop_succ_of_drop hpos) _ _)
        | _ => exact mirrors_refuse _ _
  · intro hd
    simp only [Calculator.group, Calculator.sum, Calculator.product, Calculator.chained,
      h.deepest hd, error_bind]

theorem follows_primary (h : FollowsInside ts depth inner reader) :
    Follows ts depth (primary ts inner) (Calculator.primary maxHeight reader) := by
  intro pos
  generalize hrest : ts.drop pos = us
  refine mirrors_advance hrest ?_
  cases us with
  | nil => exact mirrors_refuse _ _
  | cons t us =>
      have hus := drop_succ_of_drop hrest
      cases t with
      | number text => exact mirrors_pure hus _ _
      | constant k => exact mirrors_pure hus _ _
      | leftParen =>
          rw [← hus]
          exact follows_group h _
      | function f =>
          refine mirrors_advance hus ?_
          cases us with
          | nil => exact mirrors_refuse _ _
          | cons t us =>
              have hus' := drop_succ_of_drop hus
              cases t with
              | leftParen =>
                  have hgroup := follows_group h (pos + 1 + 1)
                  rw [hus'] at hgroup
                  refine hgroup.bind ?_
                  intro x pos' hpos
                  exact mirrors_node hpos _ _
              | _ => exact mirrors_refuse _ _
      | _ => exact mirrors_refuse _ _

theorem follows_power (h : FollowsInside ts depth inner reader) :
    Follows ts depth (power ts inner) (Calculator.power maxHeight reader) := by
  intro pos
  refine (follows_primary h pos).bind ?_
  intro x pos' hpos
  exact mirrors_postfixes hpos _ _

theorem follows_unaryAbove (h : FollowsInside ts depth inner reader) :
    Follows ts depth (unaryAbove ts inner) (Calculator.unaryAbove maxHeight reader) := by
  intro pos
  have hpower := follows_power h pos
  generalize hrest : ts.drop pos = us at hpower ⊢
  refine mirrors_current hrest ?_
  cases us with
  | nil => exact hpower
  | cons t us =>
      cases t with
      | minus =>
          refine mirrors_skip (mirrors_enter ?_ ?_)
          · intro hd
            have hinner := h.deeper hd (pos + 1)
            rw [drop_succ_of_drop hrest] at hinner
            refine hinner.bind ?_
            intro x pos' hpos
            exact mirrors_leave (mirrors_node hpos _ _)
          · intro hd
            simp only [Calculator.unaryAbove, h.deepest hd, error_bind]
      | _ => exact hpower

/-- With levels enough to call, the routine for unary expressions at some depth follows the reader
for the levels that are left. -/
theorem follows_unary (ts : List Token) {levels depth : Nat} (hlevels : maxNesting < levels + depth)
    (hdepth : depth ≤ maxNesting) :
    Follows ts depth (unary ts levels) (Calculator.unary maxHeight (maxNesting + 1 - depth)) := by
  induction levels generalizing depth with
  | zero => omega
  | succ levels ih =>
      have hsucc : maxNesting + 1 - depth = maxNesting - depth + 1 := by omega
      rw [hsucc]
      refine follows_unaryAbove ⟨?_, ?_⟩
      · intro hd
        have hinner : maxNesting + 1 - (depth + 1) = maxNesting - depth := by omega
        rw [← hinner]
        exact ih (by omega) hd
      · intro hd us
        rw [Nat.sub_eq_zero_of_le hd, unary_zero]

end Nesting

/-! ### The whole analysis -/

/-- With levels enough to call, the analysis comes to the expression that the tokens form, or to the
refusal. -/
theorem result_analyse (ts : List Token) {levels : Nat} (h : maxNesting < levels) :
    (analyse ts levels).result = (Expr.ofTokens ts).mapError .refused := by
  have hsum : Mirrors ts 0 (routine ts levels .sum ⟨0, 0⟩)
      (Calculator.sum maxHeight (Calculator.unary maxHeight (maxNesting + 1)) ts) :=
    follows_sum (follows_unary ts h (Nat.zero_le _)) 0
  unfold analyse Expr.ofTokens Expr.ofTokensWithin
  split
  · rfl
  · generalize Calculator.sum maxHeight _ ts = o at hsum
    unfold whole
    cases hm : routine ts levels .sum ⟨0, 0⟩ with
    | mk result c moments =>
        rw [hm] at hsum
        cases o with
        | error e =>
            obtain rfl : result = .error (.refused e) := hsum
            rw [bind_of_error hm]
            rfl
        | ok x =>
            obtain ⟨rfl, hrest, -⟩ : result = .ok ⟨x.expr, x.height⟩ ∧ _ ∧ _ := hsum
            rw [bind_of_ok hm, bind_of_ok (current_run ts c), getElem?_of_drop hrest, ok_bind]
            cases x.rest with
            | nil => rfl
            | cons t us => cases t <;> rfl

/-- **The bookkeeping of the descent is exact.**  With more levels to call than may be nested, the
analysis comes to the expression that the tokens form or to the refusal, so that it neither leaves a
level that it has not entered nor runs out of levels.  It is never deeper than one level below the
bound.  And in every call of a routine, from whatever cursor, no level is left that was not entered,
and a tree is returned only if the place has moved on within the tokens, the depth is back at what
it was, and the height that was counted is the height of the tree and keeps to its bound. -/
theorem bookkeeping_is_exact (ts : List Token) :
    (∀ levels, maxNesting < levels →
      (analyse ts levels).result = (Expr.ofTokens ts).mapError .refused) ∧
    (∀ levels, ∀ c ∈ (analyse ts levels).moments, c.depth ≤ maxNesting + 1) ∧
    ∀ levels name c,
      (routine ts levels name c).result ≠ .error .underflow ∧
      ∀ x, (routine ts levels name c).result = .ok x →
        c.pos < (routine ts levels name c).cursor.pos ∧
        (routine ts levels name c).cursor.pos ≤ ts.length ∧
        (routine ts levels name c).cursor.depth = c.depth ∧
        x.height = x.expr.height ∧ x.height ≤ maxHeight := by
  refine ⟨fun levels h => result_analyse ts h, fun levels => (safe_analyse ts levels).depth_le, ?_⟩
  intro levels name c
  obtain ⟨-, hunder, hreturns⟩ := keepsBooks_routine ts levels name c
  refine ⟨hunder, ?_⟩
  intro x hx
  obtain ⟨hlt, hle, hdepth, hheight, hbound⟩ := hreturns x hx
  exact ⟨hlt, hle, hdepth, hheight, hbound⟩

/-- A minus sign and a group are one level each, and behind them the depth is zero again. -/
theorem bookkeeping_is_exact_negated_group :
    ∃ ts r, ts = [Token.minus, .leftParen, .number "2", .rightParen] ∧
      r = routine ts (maxNesting + 1) .unary ⟨0, 0⟩ ∧
      (analyse ts (maxNesting + 1)).result = .ok (.neg (.literal "2")) ∧
      (∀ c ∈ (analyse ts (maxNesting + 1)).moments, c.depth ≤ maxNesting + 1) ∧
      r.result = .ok ⟨.neg (.literal "2"), 2⟩ ∧
      0 < r.cursor.pos ∧ r.cursor.pos ≤ 4 ∧ r.cursor.depth = 0 := by
  have hunary : Derives .unary 2 [.minus, .leftParen, .number "2", .rightParen]
      (.neg (.literal "2")) :=
    .neg (.ofPower (.ofPrimary (.group
      (.ofProduct (.ofUnary (.ofPower (.ofPrimary (.number "2"))))))))
  have hread : Expr.ofTokens [.minus, .leftParen, .number "2", .rightParen] =
      .ok (.neg (.literal "2")) :=
    (ofTokensWithin_eq_ok (by decide)).2 ⟨2, .ofProduct (.ofUnary hunary), by decide, by decide⟩
  have hresult : (routine [.minus, .leftParen, .number "2", .rightParen] (maxNesting + 1) .unary
      ⟨0, 0⟩).result = .ok ⟨.neg (.literal "2"), 2⟩ := by
    have hfollows := follows_unary [.minus, .leftParen, .number "2", .rightParen]
      (Nat.lt_succ_self maxNesting) (Nat.zero_le _) 0
    have hreader := hunary.reads (by decide : 0 < maxHeight) (maxNesting + 1) [] (by simp)
    rw [limited_of_le (by decide) (by decide), List.append_nil] at hreader
    rw [List.drop_zero, Nat.sub_zero, hreader] at hfollows
    exact hfollows.1
  obtain ⟨hanalyse, hdeepest, hcalls⟩ :=
    bookkeeping_is_exact [.minus, .leftParen, .number "2", .rightParen]
  obtain ⟨-, hreturns⟩ := hcalls (maxNesting + 1) .unary ⟨0, 0⟩
  obtain ⟨hlt, hle, hdepth, -⟩ := hreturns _ hresult
  refine ⟨_, _, rfl, rfl, ?_, hdeepest _, hresult, hlt, hle, hdepth⟩
  rw [hanalyse _ (Nat.lt_succ_self maxNesting), hread]
  rfl

end Calculator.Descent
