/-
**The books of the descent are kept.**

What is proved of the six routines of `Calculator.Expr.Descent` is one statement about runs.  A run
from a cursor moves no deeper than one level below the bound, or below where it starts if that is
deeper still; it leaves no level that it has not entered; and where it returns a tree, the place has
moved on, but not past the end of the tokens, the depth is back at what it was, and the height is
the height of the tree.

The routines call each other, but each of them calls only routines that it is given, so there is one
lemma for each routine, under the assumption that the routine for unary expressions inside it keeps
the books.  The levels are then counted upwards.  In the two loops it is the books of the caller
that are the invariant: what has been read so far could have been returned.

Main definitions

* `Calculator.Descent.Run.Safe` — what a run may do on its way, and where it may return;
* `Calculator.Descent.Returned` — the books when a routine returns a tree;
* `Calculator.Descent.KeepsBooks` — every run of a routine is safe and returns so.

Main results

* `Calculator.Descent.Run.Safe.bind` — one safe run after another;
* `Calculator.Descent.keepsBooks_routine` — all six routines keep the books.
-/

import Calculator.Expr.Descent

set_option autoImplicit false

namespace Calculator.Descent

/-! ### Safe runs -/

/-- A run that keeps to depths up to `deepest` and to levels that it has entered, and that returns
only where `Q` holds of what is returned and of the cursor. -/
structure Run.Safe {α : Type} (r : Run α) (deepest : Nat) (Q : α → Cursor → Prop) : Prop where
  /-- The cursor is never deeper. -/
  depth_le : ∀ c ∈ r.moments, c.depth ≤ deepest
  /-- No level is left that was not entered. -/
  no_underflow : r.result ≠ .error .underflow
  /-- What is returned, and where. -/
  returns : ∀ a, r.result = .ok a → Q a r.cursor

section Safe

variable {α β : Type} {deepest : Nat} {c : Cursor}

/-- One safe run after another: what the first one returns is where the second one starts. -/
theorem Run.Safe.bind {m : Routine α} {next : α → Routine β} {P : α → Cursor → Prop}
    {Q : β → Cursor → Prop} (h : (m c).Safe deepest P)
    (hnext : ∀ a c', P a c' → (next a c').Safe deepest Q) :
    ((m >>= next) c).Safe deepest Q := by
  obtain ⟨hdepth, hunder, hreturns⟩ := h
  cases hm : m c with
  | mk result c' moments =>
      rw [hm] at hdepth hunder hreturns
      cases result with
      | error e =>
          rw [bind_of_error hm]
          refine ⟨hdepth, ?_, by simp⟩
          intro he
          cases he
          exact hunder rfl
      | ok a =>
          obtain ⟨hdepth', hunder', hreturns'⟩ := hnext a c' (hreturns a rfl)
          rw [bind_of_ok hm]
          refine ⟨?_, hunder', hreturns'⟩
          intro c'' hc
          exact (List.mem_append.1 hc).elim (hdepth c'') (hdepth' c'')

theorem Run.Safe.mono {r : Run α} {deepest' : Nat} {P Q : α → Cursor → Prop}
    (h : r.Safe deepest P) (hd : deepest ≤ deepest') (hQ : ∀ a c', P a c' → Q a c') :
    r.Safe deepest' Q :=
  ⟨fun c' hc => Nat.le_trans (h.depth_le c' hc) hd, h.no_underflow,
    fun a ha => hQ a _ (h.returns a ha)⟩

/-- A routine that returns and has not been too deep. -/
theorem safe_of_ok {m : Routine α} {c' : Cursor} {a : α} {moments : List Cursor}
    {Q : α → Cursor → Prop} (hm : m c = ⟨.ok a, c', moments⟩)
    (hd : ∀ c'' ∈ moments, c''.depth ≤ deepest) (h : Q a c') : (m c).Safe deepest Q := by
  rw [hm]
  refine ⟨hd, nofun, ?_⟩
  intro b hb
  cases hb
  exact h

theorem safe_pure {a : α} {Q : α → Cursor → Prop} (h : Q a c) :
    ((pure a : Routine α) c).Safe deepest Q := safe_of_ok rfl (by simp) h

theorem safe_halt {e : Stop} {Q : α → Cursor → Prop} (he : e ≠ .underflow) :
    ((halt e : Routine α) c).Safe deepest Q := by
  refine ⟨by simp [halt], ?_, by simp [halt]⟩
  intro h
  cases h
  exact he rfl

theorem safe_refuse (e : SyntaxError) (Q : α → Cursor → Prop) :
    ((refuse e : Routine α) c).Safe deepest Q := safe_halt nofun

theorem safe_current (ts : List Token) :
    (current ts c).Safe deepest fun t c' => ts[c.pos]? = t ∧ c = c' :=
  safe_of_ok (current_run ts c) (by simp) ⟨rfl, rfl⟩

theorem safe_skip (h : c.depth ≤ deepest) :
    (skip c).Safe deepest fun _ c' => ⟨c.pos + 1, c.depth⟩ = c' :=
  safe_of_ok (skip_run _ _) (by simpa using h) rfl

theorem safe_advance (ts : List Token) (h : c.depth ≤ deepest) :
    (advance ts c).Safe deepest fun t c' => ts[c.pos]? = t ∧ ⟨c.pos + 1, c.depth⟩ = c' :=
  safe_of_ok (advance_run ts _ _) (by simpa using h) ⟨rfl, rfl⟩

theorem safe_enter (h : c.depth + 1 ≤ deepest) :
    (enter c).Safe deepest fun _ c' => ⟨c.pos, c.depth + 1⟩ = c' ∧ c.depth + 1 ≤ maxNesting := by
  rcases Nat.lt_or_ge c.depth maxNesting with hd | hd
  · exact safe_of_ok (enter_run_of_lt hd) (by simpa using h) ⟨rfl, hd⟩
  · rw [enter_run_of_le hd]
    exact ⟨by simpa using h, nofun, nofun⟩

/-- A level that has been entered can be left. -/
theorem safe_leave {depth : Nat} (hd : c.depth = depth + 1) (h : depth ≤ deepest) :
    (leave c).Safe deepest fun _ c' => ⟨c.pos, depth⟩ = c' := by
  obtain ⟨pos, _⟩ := c
  subst hd
  exact safe_of_ok (leave_run pos depth) (by simpa using h) rfl

end Safe

/-! ### The books of a call -/

/-- The books when a routine that was called at the cursor `c` returns `x` at the cursor `c'`. -/
structure Returned (ts : List Token) (c : Cursor) (x : Counted) (c' : Cursor) : Prop where
  /-- Something was read. -/
  pos_lt : c.pos < c'.pos
  /-- Only tokens were read. -/
  pos_le : c'.pos ≤ ts.length
  /-- Every level that was entered has been left. -/
  depth_eq : c'.depth = c.depth
  /-- The height was counted right. -/
  height_eq : x.height = x.expr.height
  /-- The tree is not too high. -/
  height_le : x.height ≤ maxHeight

/-- The depth that a call at the cursor `c` never exceeds: the level that is too deep is counted
before it is refused. -/
def Cursor.deepest (c : Cursor) : Nat := max c.depth maxNesting + 1

/-- The next level may be counted. -/
theorem Cursor.depth_succ_le_deepest (c : Cursor) : c.depth + 1 ≤ c.deepest :=
  Nat.succ_le_succ (Nat.le_max_left _ _)

theorem Cursor.depth_le_deepest (c : Cursor) : c.depth ≤ c.deepest :=
  Nat.le_of_succ_le c.depth_succ_le_deepest

/-- A routine keeps the books in every call. -/
def KeepsBooks (ts : List Token) (m : Routine Counted) : Prop :=
  ∀ c, (m c).Safe c.deepest (Returned ts c)

section KeepsBooks

variable {ts : List Token} {inner operand : Routine Counted}

theorem Returned.depth_le_deepest {c c' : Cursor} {x : Counted} (h : Returned ts c x c') :
    c'.depth ≤ c.deepest := by
  rw [h.depth_eq]
  exact c.depth_le_deepest

/-- A leaf is returned behind its token. -/
theorem returned_leaf {c : Cursor} {e : Expr} {t : Token} (he : e.height = 1)
    (ht : ts[c.pos]? = some t) : Returned ts c ⟨e, 1⟩ ⟨c.pos + 1, c.depth⟩ :=
  ⟨Nat.lt_succ_self _, (List.getElem?_eq_some_iff.1 ht).1, rfl, he.symm, by simp [maxHeight]⟩

/-- A node above trees that were returned. -/
theorem safe_node {c c' : Cursor} {e : Expr} {below deepest : Nat}
    (h : below + 1 ≤ maxHeight → Returned ts c ⟨e, below + 1⟩ c') :
    (node e below c').Safe deepest (Returned ts c) := by
  unfold node
  split
  · exact safe_pure (h ‹_›)
  · exact safe_refuse _ _

theorem height_of_marker? {t : Token} {mark : Expr → Expr} (h : marker? t = some mark)
    (e : Expr) : (mark e).height = e.height + 1 := by
  cases t <;> simp [marker?] at h <;> rw [← h, Expr.height]

/-- Markers extend what could have been returned. -/
theorem safe_postfixes {c c' : Cursor} {x : Counted} (h : Returned ts c x c') :
    (postfixes ts x c').Safe c.deepest (Returned ts c) := by
  induction x using postfixes.induct generalizing c' with
  | case1 x ih =>
      rw [postfixes]
      refine (safe_current ts).bind ?_
      rintro t _ ⟨ht, rfl⟩
      cases hmark : t.bind marker? with
      | none => exact safe_pure h
      | some mark =>
          obtain ⟨token, rfl, hmark⟩ := Option.bind_eq_some_iff.1 hmark
          have hlt : c'.pos < ts.length := (List.getElem?_eq_some_iff.1 ht).1
          dsimp only
          split
          · rename_i hb
            refine (safe_skip h.depth_le_deepest).bind ?_
            rintro _ _ rfl
            refine ih mark hb ⟨?_, hlt, h.depth_eq, ?_, hb⟩
            · exact Nat.lt_succ_of_lt h.pos_lt
            · rw [height_of_marker? hmark, h.height_eq]
          · exact safe_refuse _ _

/-- Operators with their operands extend what could have been returned. -/
theorem safe_chain {op? : Token → Option BinOp} (hop : KeepsBooks ts operand) {c c' : Cursor}
    {left : Counted} (h : Returned ts c left c') :
    (chain ts op? operand left c').Safe c.deepest (Returned ts c) := by
  induction left using chain.induct generalizing c' with
  | case1 left ih =>
      rw [chain]
      refine (safe_current ts).bind ?_
      rintro t _ ⟨-, rfl⟩
      cases t.bind op? with
      | none => exact safe_pure h
      | some op =>
          refine (safe_skip h.depth_le_deepest).bind ?_
          rintro _ _ rfl
          -- the operand starts at the depth at which the chain did
          have hdeepest : (Cursor.mk (c'.pos + 1) c'.depth).deepest = c.deepest := by
            simp only [Cursor.deepest, h.depth_eq]
          refine ((hop _).mono (Nat.le_of_eq hdeepest) fun _ _ => id).bind ?_
          intro right c'' hright
          split
          · rename_i hb
            refine ih op right hb ⟨?_, hright.pos_le, ?_, ?_, hb⟩
            · exact Nat.lt_trans (Nat.lt_succ_of_lt h.pos_lt) hright.pos_lt
            · rw [hright.depth_eq, h.depth_eq]
            · rw [Expr.height, ← h.height_eq, ← hright.height_eq]
          · exact safe_refuse _ _

theorem keepsBooks_chained {op? : Token → Option BinOp} (h : KeepsBooks ts operand) :
    KeepsBooks ts (chained ts op? operand) := by
  intro c
  refine (h c).bind ?_
  intro left c' hleft
  exact safe_chain h hleft

theorem keepsBooks_product (h : KeepsBooks ts inner) : KeepsBooks ts (product ts inner) :=
  keepsBooks_chained h

theorem keepsBooks_sum (h : KeepsBooks ts inner) : KeepsBooks ts (sum ts inner) :=
  keepsBooks_chained (keepsBooks_product h)

/-- A call inside a level that was entered is no deeper than the calls outside it. -/
theorem KeepsBooks.entered {m : Routine Counted} (h : KeepsBooks ts m) {c : Cursor} (pos : Nat)
    (hd : c.depth + 1 ≤ maxNesting) :
    (m ⟨pos, c.depth + 1⟩).Safe c.deepest (Returned ts ⟨pos, c.depth + 1⟩) := by
  refine (h _).mono ?_ fun _ _ => id
  simp only [Cursor.deepest]
  omega

theorem keepsBooks_group (h : KeepsBooks ts inner) : KeepsBooks ts (group ts inner) := by
  intro c
  refine (safe_enter c.depth_succ_le_deepest).bind ?_
  rintro _ _ ⟨rfl, hd⟩
  refine ((keepsBooks_sum h).entered c.pos hd).bind ?_
  intro x c' hx
  have hdeepest : c'.depth ≤ c.deepest := by
    rw [hx.depth_eq]
    exact c.depth_succ_le_deepest
  refine (safe_advance ts hdeepest).bind ?_
  rintro t _ ⟨ht, rfl⟩
  -- without the closing parenthesis the level stays open, but then nothing is returned
  split
  · refine Run.Safe.bind (safe_leave hx.depth_eq c.depth_le_deepest) ?_
    rintro _ _ rfl
    exact safe_pure ⟨Nat.lt_succ_of_lt hx.pos_lt, (List.getElem?_eq_some_iff.1 ht).1, rfl,
      hx.height_eq, hx.height_le⟩
  · exact safe_refuse _ _

theorem keepsBooks_primary (h : KeepsBooks ts inner) : KeepsBooks ts (primary ts inner) := by
  intro c
  refine (safe_advance ts c.depth_le_deepest).bind ?_
  rintro t _ ⟨ht, rfl⟩
  split
  · exact safe_pure (returned_leaf rfl ht)
  · exact safe_pure (returned_leaf rfl ht)
  · refine (keepsBooks_group h _).mono Nat.le.refl ?_
    intro x c' hx
    exact ⟨Nat.lt_of_succ_lt hx.pos_lt, hx.pos_le, hx.depth_eq, hx.height_eq, hx.height_le⟩
  · rename_i f
    refine Run.Safe.bind (safe_advance ts c.depth_le_deepest) ?_
    rintro _ _ ⟨-, rfl⟩
    split
    · refine (keepsBooks_group h _).bind ?_
      intro x c' hx
      have hpos : c.pos + 2 < c'.pos := hx.pos_lt
      refine safe_node fun hb => ⟨by omega, hx.pos_le, hx.depth_eq, ?_, hb⟩
      rw [Expr.height, ← hx.height_eq]
    · exact safe_refuse _ _
  · exact safe_refuse _ _

theorem keepsBooks_power (h : KeepsBooks ts inner) : KeepsBooks ts (power ts inner) := by
  intro c
  refine (keepsBooks_primary h c).bind ?_
  intro x c' hx
  exact safe_postfixes hx

theorem keepsBooks_unaryAbove (h : KeepsBooks ts inner) :
    KeepsBooks ts (unaryAbove ts inner) := by
  intro c
  refine (safe_current ts).bind ?_
  rintro t _ ⟨ht, rfl⟩
  split
  · refine (safe_skip c.depth_le_deepest).bind ?_
    rintro _ _ rfl
    refine (safe_enter (Cursor.depth_succ_le_deepest _)).bind ?_
    rintro _ _ ⟨rfl, hd⟩
    refine (h.entered (c.pos + 1) hd).bind ?_
    intro x c' hx
    refine (safe_leave hx.depth_eq c.depth_le_deepest).bind ?_
    rintro _ _ rfl
    have hpos : c.pos + 1 < c'.pos := hx.pos_lt
    refine safe_node fun hb => ⟨Nat.lt_of_succ_lt hpos, hx.pos_le, rfl, ?_, hb⟩
    rw [Expr.height, ← hx.height_eq]
  · exact keepsBooks_power h c

/-- However many levels there are to call, the routine for unary expressions keeps the books. -/
theorem keepsBooks_unary (ts : List Token) (levels : Nat) : KeepsBooks ts (unary ts levels) := by
  induction levels with
  | zero =>
      intro c
      exact safe_halt nofun
  | succ levels ih => exact keepsBooks_unaryAbove ih

/-- All six routines keep the books. -/
theorem keepsBooks_routine (ts : List Token) (levels : Nat) (name : Name) :
    KeepsBooks ts (routine ts levels name) := by
  have h : KeepsBooks ts (unary ts levels) := keepsBooks_unary ts levels
  cases name with
  | sum => exact keepsBooks_sum h
  | product => exact keepsBooks_product h
  | unary => exact h
  | power => exact keepsBooks_power h
  | primary => exact keepsBooks_primary h
  | group => exact keepsBooks_group h

end KeepsBooks

/-! ### The whole analysis -/

/-- The analysis is never deeper than one level below the bound. -/
theorem safe_analyse (ts : List Token) (levels : Nat) :
    (analyse ts levels).Safe (maxNesting + 1) fun _ _ => True := by
  have hsum : (routine ts levels .sum ⟨0, 0⟩).Safe (maxNesting + 1) (Returned ts ⟨0, 0⟩) :=
    (keepsBooks_routine ts levels .sum ⟨0, 0⟩).mono (by simp [Cursor.deepest]) fun _ _ => id
  unfold analyse
  split
  · exact safe_halt nofun
  · refine hsum.bind ?_
    intro x c' hx
    refine (safe_current ts).bind ?_
    rintro t _ ⟨-, rfl⟩
    split
    · exact safe_pure trivial
    · exact safe_refuse _ _
    · exact safe_refuse _ _

end Calculator.Descent
