/-
**The readers decide the grammar within their bounds.**

A reader of `Calculator.Expr.Parse` is compared with the grammar in both directions.  What the
grammar derives is read, and read as that tree, if the tokens nest within the levels that the
reader follows and the tree is not higher than its bound; elsewhere it is refused as too deep, and
for no other reason.  What is read, the grammar derives.

The two left recursive rules decide how the first direction is stated.  A reader of sums does not
read the first part of a sum as a sum of its own: it reads one product and goes on with a chain.  So
the statement for a level with a loop says how the reader goes on *after* the derived tokens,
whatever follows them, and the loop ends where nothing of its level follows.

The bounds are parameters of the readers, and no expression exceeds all bounds.  Reading with bounds
that are wide enough therefore decides the grammar itself, which is how it is seen to be
unambiguous.

Main definitions

* `Calculator.limited` — an outcome for the expressions within the bounds, a refusal elsewhere;
* `Calculator.Reads` — what the reader of a level makes of tokens that form an expression;
* `Calculator.Yields` — a reader takes off operands of its level only.

Main results

* `Calculator.Derives.reads` — what the grammar derives is read or refused as too deep;
* `Calculator.yields_unary` — what is read, the grammar derives;
* `Calculator.ofTokensWithin_eq_ok` — what is read from tokens is what they form within the bounds;
* `Calculator.ofText_of_derives`, `Calculator.ofText_eq_ok_iff_derives` — the same for a text, with
  the refusal beyond the bounds;
* `Calculator.Derives.unique` — the grammar is unambiguous;
* `Calculator.ofTokens_decides_grammar` — tokens are read exactly as the grammar and the two bounds
  say.
-/

import Calculator.Proofs.Grammar
import Mathlib.Logic.Basic

set_option autoImplicit false

namespace Calculator

/-! ### Outcomes within the bounds -/

/-- The outcome `r` for an expression that nests less than `depth` deep and is not higher than
`bound`; a refusal for any other. -/
def limited (bound depth nesting : Nat) (e : Expr) (r : Except SyntaxError Operand) :
    Except SyntaxError Operand :=
  if nesting < depth ∧ e.height ≤ bound then r else .error .tooDeep

theorem limited_of_le {bound depth nesting : Nat} {e : Expr} (hn : nesting < depth)
    (he : e.height ≤ bound) (r : Except SyntaxError Operand) :
    limited bound depth nesting e r = r := if_pos ⟨hn, he⟩

theorem limited_of_not {bound depth nesting : Nat} {e : Expr}
    (h : ¬ (nesting < depth ∧ e.height ≤ bound)) (r : Except SyntaxError Operand) :
    limited bound depth nesting e r = .error .tooDeep := if_neg h

@[simp] theorem limited_zero (bound nesting : Nat) (e : Expr) (r : Except SyntaxError Operand) :
    limited bound 0 nesting e r = .error .tooDeep := limited_of_not (by omega) r

/-- A further step after an outcome within the bounds. -/
theorem limited_bind (bound depth nesting : Nat) (e : Expr) (x : Operand)
    (next : Operand → Except SyntaxError Operand) :
    (limited bound depth nesting e (.ok x) >>= next) = limited bound depth nesting e (next x) := by
  by_cases h : nesting < depth ∧ e.height ≤ bound
  · rw [limited_of_le h.1 h.2, limited_of_le h.1 h.2, ok_bind]
  · rw [limited_of_not h, limited_of_not h, error_bind]

/-- A node above an expression is within the bounds if the expression is and the node is not too
high. -/
theorem limited_node {bound depth nesting : Nat} {e e' : Expr} (h : e'.height = e.height + 1)
    (r : Except SyntaxError Operand) :
    limited bound depth nesting e (if e.height + 1 ≤ bound then r else .error .tooDeep) =
      limited bound depth nesting e' r := by
  have key : (nesting < depth ∧ e.height ≤ bound) ∧ e.height + 1 ≤ bound ↔
      nesting < depth ∧ e'.height ≤ bound := by
    omega
  simp only [limited, ← key, ite_and]

/-- What is nested one level deeper. -/
theorem limited_succ (bound depth nesting : Nat) (e : Expr) (r : Except SyntaxError Operand) :
    limited bound (depth + 1) (nesting + 1) e r = limited bound depth nesting e r := by
  simp [limited]

/-- A node with two operands. -/
theorem limited_binary (bound depth m n : Nat) (op : BinOp) (x y : Expr)
    (r : Except SyntaxError Operand) :
    limited bound depth m x (limited bound depth n y
        (if max x.height y.height + 1 ≤ bound then r else .error .tooDeep)) =
      limited bound depth (max m n) (.binary op x y) r := by
  have key : (m < depth ∧ x.height ≤ bound) ∧ (n < depth ∧ y.height ≤ bound) ∧
      max x.height y.height + 1 ≤ bound ↔
      max m n < depth ∧ (Expr.binary op x y).height ≤ bound := by
    simp only [Expr.height]
    omega
  simp only [limited, ← key, ite_and]

/-! ### Chains and markers -/

/-- Whether a token is a marker after its operand. -/
def Token.isMarker : Token → Bool
  | .square => true
  | .percent => true
  | _ => false

/-- Where no marker follows, an operand ends. -/
theorem postfixes_of_end {rest : List Token} (h : ∀ t ∈ rest.head?, t.isMarker = false)
    (bound : Nat) (e : Expr) (height : Nat) :
    postfixes bound e height rest = .ok ⟨e, height, rest⟩ := by
  cases rest with
  | nil => rfl
  | cons t ts => cases t <;> first | rfl | simp [Token.isMarker] at h

/-- Where no operator of its level follows, a chain ends. -/
theorem chain_of_end {op? : Token → Option BinOp} {left : Operand}
    (h : ∀ t ∈ left.rest.head?, op? t = none) (bound : Nat) (operand : Reader) :
    chain bound op? operand left = .ok left := by
  rw [chain]
  split
  · rfl
  · rename_i t ts hts
    rw [h t (by simp [hts])]

/-- A chain goes on with an operator and its right operand. -/
theorem chain_of_operator {op? : Token → Option BinOp} {op : BinOp} {t : Token}
    (hop : op? t = some op) (bound : Nat) (operand : Reader) (e : Expr) (height : Nat)
    (ts : List Token) :
    chain bound op? operand ⟨e, height, t :: ts⟩ = operand ts >>= fun right =>
      if max height right.height + 1 ≤ bound then
        chain bound op? operand
          ⟨.binary op e right.expr, max height right.height + 1, right.rest⟩
      else .error .tooDeep := by
  rw [chain]
  simp only [hop]

/-- A token that goes on with a product is no marker. -/
theorem BinOp.isMarker_of_multiplicative? {t : Token} {op : BinOp}
    (h : BinOp.multiplicative? t = some op) : t.isMarker = false := by
  cases t <;> first | rfl | simp [BinOp.multiplicative?] at h

/-- A token that goes on with a sum neither goes on with a product nor is a marker. -/
theorem BinOp.multiplicative?_of_additive? {t : Token} {op : BinOp}
    (h : BinOp.additive? t = some op) :
    BinOp.multiplicative? t = none ∧ t.isMarker = false := by
  cases t <;> first | exact ⟨rfl, rfl⟩ | simp [BinOp.additive?] at h

/-! ### What the grammar derives is read -/

/-- What the reader of a level makes of tokens that form the expression `e`: for every nesting that
it follows and whatever comes after the tokens, it goes on after them if `e` keeps to the bounds.
What comes after must not continue an operand of a tighter level. -/
def Reads (bound nesting : Nat) (ts : List Token) (e : Expr) : Category → Prop
  | .primary => ∀ depth rest,
      primary bound (unary bound depth) (ts ++ rest) =
        limited bound (depth + 1) nesting e (.ok ⟨e, e.height, rest⟩)
  | .power => ∀ depth rest,
      power bound (unary bound depth) (ts ++ rest) =
        limited bound (depth + 1) nesting e (postfixes bound e e.height rest)
  | .unary => ∀ depth rest, (∀ t ∈ rest.head?, t.isMarker = false) →
      unary bound depth (ts ++ rest) = limited bound depth nesting e (.ok ⟨e, e.height, rest⟩)
  | .product => ∀ depth rest, (∀ t ∈ rest.head?, t.isMarker = false) →
      product bound (unary bound depth) (ts ++ rest) =
        limited bound depth nesting e
          (chain bound BinOp.multiplicative? (unary bound depth) ⟨e, e.height, rest⟩)
  | .sum => ∀ depth rest, (∀ t ∈ rest.head?, t.isMarker = false) →
      (∀ t ∈ rest.head?, BinOp.multiplicative? t = none) →
      sum bound (unary bound depth) (ts ++ rest) =
        limited bound depth nesting e
          (chain bound BinOp.additive? (product bound (unary bound depth)) ⟨e, e.height, rest⟩)

section Reads

variable {bound m n : Nat} {ts us : List Token} {e x y : Expr} {op : BinOp} {t : Token}

/-- What follows an opening parenthesis is read up to the closing one. -/
theorem group_of_reads (h : Reads bound n ts e .sum) (depth : Nat) (rest : List Token) :
    group bound (unary bound depth) (ts ++ .rightParen :: rest) =
      limited bound depth n e (.ok ⟨e, e.height, rest⟩) := by
  have hend : chain bound BinOp.additive? (product bound (unary bound depth))
      ⟨e, e.height, .rightParen :: rest⟩ = .ok ⟨e, e.height, .rightParen :: rest⟩ :=
    chain_of_end (by simp [BinOp.additive?]) _ _
  rw [group, h depth _ (by simp [Token.isMarker]) (by simp [BinOp.multiplicative?]), hend,
    limited_bind]

theorem reads_group (h : Reads bound n ts e .sum) :
    Reads bound (n + 1) (.leftParen :: ts ++ [.rightParen]) e .primary := by
  intro depth rest
  rw [limited_succ, ← group_of_reads h]
  simp [primary]

theorem reads_call (h : Reads bound n ts e .sum) (f : Function) :
    Reads bound (n + 1) (.function f :: .leftParen :: ts ++ [.rightParen]) (.call f e)
      .primary := by
  intro depth rest
  calc primary bound (unary bound depth)
        (.function f :: .leftParen :: ts ++ [.rightParen] ++ rest)
      = group bound (unary bound depth) (ts ++ .rightParen :: rest) >>=
          fun x => node bound (.call f x.expr) x.height x.rest := by
        simp [primary]
    _ = limited bound depth n e (node bound (.call f e) e.height rest) := by
        rw [group_of_reads h, limited_bind]
    _ = limited bound (depth + 1) (n + 1) (.call f e)
          (.ok ⟨.call f e, (Expr.call f e).height, rest⟩) := by
        rw [limited_succ]
        exact limited_node rfl _

theorem reads_ofPrimary (h : Reads bound n ts e .primary) : Reads bound n ts e .power := by
  intro depth rest
  rw [power, h depth rest, limited_bind]

theorem reads_square (h : Reads bound n ts e .power) :
    Reads bound n (ts ++ [.square]) (.square e) .power := by
  intro depth rest
  rw [List.append_assoc, h depth _]
  exact limited_node rfl _

theorem reads_percent (h : Reads bound n ts e .power) :
    Reads bound n (ts ++ [.percent]) (.percent e) .power := by
  intro depth rest
  rw [List.append_assoc, h depth _]
  exact limited_node rfl _

theorem reads_ofPower (h : Reads bound n ts e .power) (hts : ∃ t us, ts = t :: us ∧ t ≠ .minus) :
    Reads bound n ts e .unary := by
  intro depth rest hrest
  cases depth with
  | zero => rw [unary_zero, limited_zero]
  | succ depth =>
      have hpower : unary bound (depth + 1) (ts ++ rest) =
          power bound (unary bound depth) (ts ++ rest) := by
        obtain ⟨t, us, rfl, ht⟩ := hts
        rw [unary, List.cons_append]
        cases t <;> first | rfl | exact absurd rfl ht
      rw [hpower, h depth rest, postfixes_of_end hrest]

theorem reads_neg (h : Reads bound n ts e .unary) :
    Reads bound (n + 1) (.minus :: ts) (.neg e) .unary := by
  intro depth rest hrest
  cases depth with
  | zero => rw [unary_zero, limited_zero]
  | succ depth =>
      calc unary bound (depth + 1) (.minus :: ts ++ rest)
          = unary bound depth (ts ++ rest) >>=
              fun x => node bound (.neg x.expr) x.height x.rest := rfl
        _ = limited bound depth n e (node bound (.neg e) e.height rest) := by
            rw [h depth rest hrest, limited_bind]
        _ = limited bound (depth + 1) (n + 1) (.neg e)
              (.ok ⟨.neg e, (Expr.neg e).height, rest⟩) := by
            rw [limited_succ]
            exact limited_node rfl _

theorem reads_ofUnary (h : Reads bound n ts e .unary) : Reads bound n ts e .product := by
  intro depth rest hrest
  rw [product, chained, h depth rest hrest, limited_bind]

/-- A chain that has read `x` goes on with an operator and `y`. -/
theorem chain_of_reads {op? : Token → Option BinOp} {operand : Reader} {depth : Nat}
    {rest : List Token} (hop : op? t = some op)
    (hy : operand (us ++ rest) = limited bound depth n y (.ok ⟨y, y.height, rest⟩)) :
    limited bound depth m x (chain bound op? operand ⟨x, x.height, t :: (us ++ rest)⟩) =
      limited bound depth (max m n) (.binary op x y)
        (chain bound op? operand ⟨.binary op x y, (Expr.binary op x y).height, rest⟩) := by
  rw [chain_of_operator hop, hy, limited_bind]
  exact limited_binary bound depth m n op x y _

theorem reads_multiply (hop : BinOp.multiplicative? t = some op)
    (hx : Reads bound m ts x .product) (hy : Reads bound n us y .unary) :
    Reads bound (max m n) (ts ++ t :: us) (.binary op x y) .product := by
  intro depth rest hrest
  -- what follows the left part is an operator, so its last operand ends there
  have ht : ∀ u ∈ (t :: (us ++ rest)).head?, u.isMarker = false := by
    simpa using BinOp.isMarker_of_multiplicative? hop
  rw [List.append_assoc, List.cons_append, hx depth _ ht]
  exact chain_of_reads hop (hy depth rest hrest)

theorem reads_ofProduct (h : Reads bound n ts e .product) : Reads bound n ts e .sum := by
  intro depth rest hrest hmul
  rw [sum, chained, h depth rest hrest, chain_of_end hmul, limited_bind]

theorem reads_add (hop : BinOp.additive? t = some op) (hx : Reads bound m ts x .sum)
    (hy : Reads bound n us y .product) :
    Reads bound (max m n) (ts ++ t :: us) (.binary op x y) .sum := by
  intro depth rest hrest hmul
  -- the operator ends a factor on its left as well as the product it belongs to
  obtain ⟨htmul, htmarker⟩ := BinOp.multiplicative?_of_additive? hop
  have hproduct : product bound (unary bound depth) (us ++ rest) =
      limited bound depth n y (.ok ⟨y, y.height, rest⟩) := by
    rw [hy depth rest hrest, chain_of_end hmul]
  rw [List.append_assoc, List.cons_append,
    hx depth _ (by simpa using htmarker) (by simpa using htmul)]
  exact chain_of_reads hop hproduct

end Reads

/-- What the grammar derives is read if it keeps to the bounds, and refused as too deep if not. -/
theorem Derives.reads {bound : Nat} (hb : 0 < bound) {c : Category} {n : Nat} {ts : List Token}
    {e : Expr} (h : Derives c n ts e) : Reads bound n ts e c := by
  -- one rule of the grammar, one step of a reader
  induction h with
  | number text =>
      intro depth rest
      exact (limited_of_le (Nat.succ_pos depth) hb _).symm
  | constant k =>
      intro depth rest
      exact (limited_of_le (Nat.succ_pos depth) hb _).symm
  | group _ ih => exact reads_group ih
  | call f _ ih => exact reads_call ih f
  | ofPrimary _ ih => exact reads_ofPrimary ih
  | square _ ih => exact reads_square ih
  | percent _ ih => exact reads_percent ih
  | ofPower h ih => exact reads_ofPower ih (h.exists_cons_ne_minus (.inl rfl))
  | neg _ ih => exact reads_neg ih
  | ofUnary _ ih => exact reads_ofUnary ih
  | multiply hop _ _ ihx ihy => exact reads_multiply hop ihx ihy
  | ofProduct _ ih => exact reads_ofProduct ih
  | add hop _ _ ihx ihy => exact reads_add hop ihx ihy

/-! ### What is read, the grammar derives -/

/-- The operand `x` was taken off the front of `ts`, by tokens that form its tree. -/
def DerivedFrom (c : Category) (ts : List Token) (x : Operand) : Prop :=
  ∃ n us, ts = us ++ x.rest ∧ Derives c n us x.expr ∧ x.height = x.expr.height

/-- A reader of a level of the grammar takes off operands of this level only. -/
def Yields (c : Category) (r : Reader) : Prop := ∀ ts x, r ts = .ok x → DerivedFrom c ts x

section Yields

variable {bound : Nat} {c d : Category} {ts : List Token} {x : Operand}

theorem node_eq_ok {e : Expr} {below : Nat} {rest : List Token}
    (h : node bound e below rest = .ok x) : x = ⟨e, below + 1, rest⟩ := by
  unfold node at h
  split at h
  · cases h
    rfl
  · cases h

/-- A derived operand may be seen at a looser level. -/
theorem DerivedFrom.mono (h : DerivedFrom c ts x)
    (hcd : ∀ {n us e}, Derives c n us e → Derives d n us e) : DerivedFrom d ts x := by
  obtain ⟨n, us, hts, hx, hh⟩ := h
  exact ⟨n, us, hts, hcd hx, hh⟩

/-- Markers extend the operand before them. -/
theorem derivedFrom_postfixes {e : Expr} {height : Nat} {rest : List Token}
    (h : DerivedFrom .power ts ⟨e, height, rest⟩) (hx : postfixes bound e height rest = .ok x) :
    DerivedFrom .power ts x := by
  -- the tree grows at its root, so the induction is on the loop and the derivation an invariant
  fun_induction postfixes bound e height rest with
  | case1 e height rest hb ih =>
      obtain ⟨n, us, rfl, he, hh⟩ := h
      exact ih ⟨n, us ++ [.square], by simp, he.square, by simpa [Expr.height] using hh⟩ hx
  | case2 => cases hx
  | case3 e height rest hb ih =>
      obtain ⟨n, us, rfl, he, hh⟩ := h
      exact ih ⟨n, us ++ [.percent], by simp, he.percent, by simpa [Expr.height] using hh⟩ hx
  | case4 => cases hx
  | case5 e height rest =>
      cases hx
      exact h

/-- Operators with their operands extend the operand before them. -/
theorem derivedFrom_chain {op? : Token → Option BinOp} {operand : Reader} {left : Operand}
    (hop : ∀ {op t m n us vs x y}, op? t = some op → Derives c m us x → Derives d n vs y →
      Derives c (max m n) (us ++ t :: vs) (.binary op x y))
    (hd : Yields d operand) (h : DerivedFrom c ts left)
    (hx : chain bound op? operand left = .ok x) : DerivedFrom c ts x := by
  induction left using chain.induct bound op? with
  | case1 left hrest =>
      rw [chain_of_end (by simp [hrest])] at hx
      cases hx
      exact h
  | case2 left t rest hrest ht =>
      rw [chain_of_end (by simp [hrest, ht])] at hx
      cases hx
      exact h
  | case3 left t rest hrest op ht ih =>
      obtain ⟨e, height, rest'⟩ := left
      cases hrest
      rw [chain_of_operator ht] at hx
      obtain ⟨right, hright, hx⟩ := bind_eq_ok.1 hx
      split at hx
      · rename_i hb
        refine ih right hb ?_ hx
        obtain ⟨m, us, rfl, he, hh⟩ := h
        obtain ⟨n, vs, rfl, hr, hhr⟩ := hd _ _ hright
        exact ⟨max m n, us ++ t :: vs, by simp, hop ht he hr, by simp_all [Expr.height]⟩
      · cases hx

theorem yields_product {r : Reader} (h : Yields .unary r) : Yields .product (product bound r) := by
  intro ts x hx
  obtain ⟨left, hleft, hx⟩ := bind_eq_ok.1 hx
  exact derivedFrom_chain .multiply h ((h _ _ hleft).mono .ofUnary) hx

theorem yields_sum {r : Reader} (h : Yields .unary r) : Yields .sum (sum bound r) := by
  intro ts x hx
  obtain ⟨left, hleft, hx⟩ := bind_eq_ok.1 hx
  exact derivedFrom_chain .add (yields_product h) ((yields_product h _ _ hleft).mono .ofProduct) hx

/-- What follows an opening parenthesis is a sum and the closing one. -/
theorem derivedFrom_group {r : Reader} (h : Yields .unary r) (hx : group bound r ts = .ok x) :
    DerivedFrom .sum ts ⟨x.expr, x.height, .rightParen :: x.rest⟩ := by
  obtain ⟨y, hy, hx⟩ := bind_eq_ok.1 hx
  split at hx
  · rename_i rest hrest
    cases hx
    rw [← hrest]
    exact yields_sum h _ _ hy
  · cases hx

theorem yields_primary {r : Reader} (h : Yields .unary r) :
    Yields .primary (primary bound r) := by
  intro ts x hx
  unfold primary at hx
  split at hx
  · cases hx
    exact ⟨0, _, rfl, .number _, rfl⟩
  · cases hx
    exact ⟨0, _, rfl, .constant _, rfl⟩
  · obtain ⟨n, us, rfl, he, hh⟩ := derivedFrom_group h hx
    exact ⟨n + 1, _, by simp, he.group, hh⟩
  · obtain ⟨y, hy, hnode⟩ := bind_eq_ok.1 hx
    obtain ⟨n, us, hts, he, hh⟩ := derivedFrom_group h hy
    rw [node_eq_ok hnode]
    exact ⟨n + 1, _, by simp [hts], he.call _, by simpa [Expr.height] using hh⟩
  · cases hx
  · cases hx

theorem yields_power {r : Reader} (h : Yields .unary r) : Yields .power (power bound r) := by
  intro ts x hx
  obtain ⟨y, hy, hx⟩ := bind_eq_ok.1 hx
  exact derivedFrom_postfixes ((yields_primary h _ _ hy).mono .ofPrimary) hx

theorem yields_unaryAbove {r : Reader} (h : Yields .unary r) :
    Yields .unary (unaryAbove bound r) := by
  intro ts x hx
  unfold unaryAbove at hx
  split at hx
  · obtain ⟨y, hy, hnode⟩ := bind_eq_ok.1 hx
    obtain ⟨n, us, rfl, he, hh⟩ := h _ _ hy
    rw [node_eq_ok hnode]
    exact ⟨n + 1, .minus :: us, rfl, he.neg, by simpa [Expr.height] using hh⟩
  · exact (yields_power h _ _ hx).mono .ofPower

/-- The readers take off what the grammar derives, however deep they follow the nesting. -/
theorem yields_unary (bound depth : Nat) : Yields .unary (unary bound depth) := by
  induction depth with
  | zero =>
      intro ts x hx
      cases hx
  | succ depth ih => exact yields_unaryAbove ih

end Yields

/-! ### Whole expressions -/

/-- Tokens that form an expression are read as this expression within the bounds, and refused as
too deep beyond them. -/
theorem ofTokensWithin_of_derives {bound n : Nat} {ts : List Token} {e : Expr} (hb : 0 < bound)
    (h : Derives .sum n ts e) (nesting : Nat) :
    Expr.ofTokensWithin bound nesting ts =
      if n ≤ nesting ∧ e.height ≤ bound then .ok e else .error .tooDeep := by
  have hsum : sum bound (unary bound (nesting + 1)) ts =
      limited bound (nesting + 1) n e (.ok ⟨e, e.height, []⟩) := by
    have hread := h.reads hb (nesting + 1) [] (by simp) (by simp)
    rwa [List.append_nil, chain_of_end (by simp)] at hread
  have hts : ts.isEmpty = false := by simpa using h.ne_nil
  rw [Expr.ofTokensWithin, hts, hsum]
  by_cases hn : n ≤ nesting ∧ e.height ≤ bound
  · rw [limited_of_le (by omega) hn.2, if_pos hn]
    rfl
  · rw [limited_of_not (by omega), if_neg hn]
    rfl

/-- What is read from tokens, they form. -/
theorem derives_of_ofTokensWithin {bound nesting : Nat} {ts : List Token} {e : Expr}
    (h : Expr.ofTokensWithin bound nesting ts = .ok e) : ∃ n, Derives .sum n ts e := by
  unfold Expr.ofTokensWithin at h
  split at h
  · cases h
  · obtain ⟨x, hx, hend⟩ := bind_eq_ok.1 h
    obtain ⟨n, us, hts, he, -⟩ := yields_sum (yields_unary _ _) _ _ hx
    split at hend
    · rename_i hrest
      cases hend
      exact ⟨n, by simpa [hts, hrest] using he⟩
    · cases hend
    · cases hend

/-- What is read from tokens is what they form within the bounds. -/
theorem ofTokensWithin_eq_ok {bound nesting : Nat} {ts : List Token} {e : Expr} (hb : 0 < bound) :
    Expr.ofTokensWithin bound nesting ts = .ok e ↔
      ∃ n, Derives .sum n ts e ∧ n ≤ nesting ∧ e.height ≤ bound := by
  constructor
  · intro h
    obtain ⟨n, hn⟩ := derives_of_ofTokensWithin h
    rw [ofTokensWithin_of_derives hb hn] at h
    split at h
    · exact ⟨n, hn, ‹_›⟩
    · cases h
  · rintro ⟨n, hn, hbounds⟩
    rw [ofTokensWithin_of_derives hb hn, if_pos hbounds]

/-- What is read from a text is read from its tokens. -/
theorem ofText_eq_ok {s : String} {e : Expr} :
    Expr.ofText s = .ok e ↔ ∃ ts, Token.ofText s = .ok ts ∧ Expr.ofTokens ts = .ok e := by
  unfold Expr.ofText
  cases Token.ofText s with
  | error err => simp
  | ok ts =>
      dsimp only
      cases hread : Expr.ofTokens ts <;> simp [hread]

/-- A text whose tokens form an expression is read as this expression within the bounds, and refused
as too deep beyond them. -/
theorem ofText_of_derives {s : String} {n : Nat} {ts : List Token} {e : Expr}
    (hs : Token.ofText s = .ok ts) (he : Derives .sum n ts e) :
    Expr.ofText s =
      if n ≤ maxNesting ∧ e.height ≤ maxHeight then .ok e else .error (.syntactic .tooDeep) := by
  have hread : Expr.ofTokens ts =
      if n ≤ maxNesting ∧ e.height ≤ maxHeight then .ok e else .error .tooDeep :=
    ofTokensWithin_of_derives (by decide) he maxNesting
  rw [Expr.ofText, hs]
  dsimp only
  rw [hread]
  by_cases hbounds : n ≤ maxNesting ∧ e.height ≤ maxHeight
  · rw [if_pos hbounds, if_pos hbounds]
  · rw [if_neg hbounds, if_neg hbounds]

/-- A text is read as what its tokens form within the bounds. -/
theorem ofText_eq_ok_iff_derives {s : String} {e : Expr} :
    Expr.ofText s = .ok e ↔ ∃ ts n, Token.ofText s = .ok ts ∧ Derives .sum n ts e ∧
      n ≤ maxNesting ∧ e.height ≤ maxHeight := by
  constructor
  · intro h
    obtain ⟨ts, hs, hread⟩ := ofText_eq_ok.1 h
    obtain ⟨n, he, hbounds⟩ := (ofTokensWithin_eq_ok (by decide)).1 hread
    exact ⟨ts, n, hs, he, hbounds⟩
  · rintro ⟨ts, n, hs, he, hbounds⟩
    rw [ofText_of_derives hs he, if_pos hbounds]

/-- The grammar is unambiguous: tokens form at most one expression, and nest one way. -/
theorem Derives.unique {m n : Nat} {ts : List Token} {x y : Expr} (hx : Derives .sum m ts x)
    (hy : Derives .sum n ts y) : m = n ∧ x = y := by
  -- with a bound that suffices for both trees, reading with each nesting gives both outcomes
  have hb : 0 < max x.height y.height := Nat.lt_of_lt_of_le x.height_pos (Nat.le_max_left _ _)
  have hread (nesting : Nat) :
      (if m ≤ nesting then Except.ok x else .error SyntaxError.tooDeep) =
        if n ≤ nesting then .ok y else .error .tooDeep := by
    simpa [Nat.le_max_left, Nat.le_max_right] using
      (ofTokensWithin_of_derives hb hx nesting).symm.trans (ofTokensWithin_of_derives hb hy nesting)
  have hnm : n ≤ m := by
    have h := hread m
    rw [if_pos (Nat.le_refl m)] at h
    split at h
    · assumption
    · cases h
  have hmn : m ≤ n := by
    have h := hread n
    rw [if_pos (Nat.le_refl n)] at h
    split at h
    · assumption
    · cases h
  have hxy := hread m
  rw [if_pos (Nat.le_refl m), if_pos hnm] at hxy
  exact ⟨Nat.le_antisymm hmn hnm, Except.ok.inj hxy⟩

/-- **Tokens are read exactly as the grammar and the two bounds say**: if they form an expression,
it is the only one, and it is what they are read as, unless they nest too deep or the tree is too
high; then, and for no other reason, they are refused as too deep.  If they form none, they are
refused. -/
theorem ofTokens_decides_grammar (ts : List Token) :
    (∀ n e, Derives .sum n ts e →
      (∀ n' e', Derives .sum n' ts e' → n' = n ∧ e' = e) ∧
      Expr.ofTokens ts =
        if n ≤ maxNesting ∧ e.height ≤ maxHeight then .ok e else .error .tooDeep) ∧
    ((∀ n e, ¬ Derives .sum n ts e) → ∃ err, Expr.ofTokens ts = .error err) := by
  constructor
  · intro n e h
    exact ⟨fun n' e' h' => h'.unique h, ofTokensWithin_of_derives (by decide) h maxNesting⟩
  · intro h
    cases hread : Expr.ofTokens ts with
    | ok e =>
        obtain ⟨n, hn⟩ := derives_of_ofTokensWithin hread
        exact absurd hn (h n e)
    | error err => exact ⟨err, rfl⟩

end Calculator
