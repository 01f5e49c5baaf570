/-
**When a parenthesis is reported as unclosed.**

The same refusal is raised in three places: behind the whole expression when a closing parenthesis
is left over, behind a function that has no argument, and at the end of a group that is not closed
there.  The first two say what is wrong.  The third one does not look at what stands in the place of
the closing parenthesis.  When that is an operand, as in `(2 3)`, every parenthesis may have its
partner, and the refusal is wrong; outside parentheses the same two numbers are refused for the
second one.

Main definitions

* `Calculator.Matched` — every parenthesis has its partner;
* `Calculator.LacksArgument` — a function is not followed by a parenthesis;
* `Calculator.OperandsAbut` — inside a group, an operand follows a complete expression.

Main results

* `Calculator.blames_of_ofTokensWithin` — what the analysis reports as unclosed;
* `Calculator.ofTokens_of_operandsAbut` — where operands abut, a parenthesis is reported as
  unclosed;
* `Calculator.unclosedParen_truthful_unless_operandsAbut` — **the report is right, except where
  operands abut**;
* `Calculator.unclosedParen_of_matched` — two numbers in parentheses.
-/

import Calculator.Proofs.OpenGroups
import Mathlib.Data.List.Infix

set_option autoImplicit false

namespace Calculator

/-! ### What the report should mean -/

/-- Every parenthesis has its partner: as many are closed as are opened, and at no place more of
them are closed than have been opened before. -/
def Matched (ts : List Token) : Prop :=
  ts.count .rightParen = ts.count .leftParen ∧
    ∀ us ∈ ts.inits, us.count .rightParen ≤ us.count .leftParen

instance (ts : List Token) : Decidable (Matched ts) := inferInstanceAs (Decidable (_ ∧ _))

/-- A function is not followed by an opening parenthesis. -/
def LacksArgument (ts : List Token) : Prop :=
  ∃ us f vs, ts = us ++ .function f :: vs ∧ vs.head? ≠ some .leftParen

/-- Inside a group that the tokens open within the bounds, an operand follows a complete sum. -/
def OperandsAbut (ts : List Token) : Prop :=
  ∃ us t vs n h, ts = us ++ t :: vs ∧ t.opensOperand ∧ Opened .sum n h us ∧
    n ≤ maxNesting ∧ h ≤ maxHeight

/-- A parenthesis that is closed behind an expression has no partner. -/
theorem not_matched_of_rightParen {n : Nat} {us vs : List Token} {e : Expr}
    (h : Derives .sum n us e) : ¬ Matched (us ++ .rightParen :: vs) := by
  rintro ⟨-, hprefix⟩
  have hle := hprefix (us ++ [.rightParen]) (by simp)
  simp only [List.count_append, h.count_eq] at hle
  exact absurd hle (by simp)

/-- What ends inside a group leaves a parenthesis without its partner. -/
theorem Opened.not_matched {c : Category} {n h : Nat} {ts : List Token} (ho : Opened c n h ts) :
    ¬ Matched ts := fun hm => Nat.ne_of_lt ho.count_lt hm.1

theorem LacksArgument.append {ts : List Token} (h : LacksArgument ts) (us : List Token) :
    LacksArgument (us ++ ts) := by
  obtain ⟨vs, f, ws, rfl, hws⟩ := h
  exact ⟨us ++ vs, f, ws, (List.append_assoc ..).symm, hws⟩

/-! ### Where an operand ends -/

/-- What a reader takes off is followed by nothing or by a token of a class. -/
def EndsBefore (p : Token → Prop) (r : Reader) : Prop :=
  ∀ ts x, r ts = .ok x → ∀ t ∈ x.rest.head?, p t

section EndsBefore

variable {bound : Nat} {r : Reader}

/-- Markers are taken as long as there are any. -/
theorem endsBefore_postfixes {e : Expr} {height : Nat} {rest : List Token} {x : Operand}
    (hx : postfixes bound e height rest = .ok x) : ∀ t ∈ x.rest.head?, t.isMarker = false := by
  fun_induction postfixes bound e height rest with
  | case1 e height rest hb ih => exact ih hx
  | case2 => cases hx
  | case3 e height rest hb ih => exact ih hx
  | case4 => cases hx
  | case5 e height rest hsquare hpercent =>
      cases hx
      intro t ht
      obtain ⟨us, rfl⟩ := List.head?_eq_some_iff.1 ht
      cases t with
      | square => exact absurd rfl (hsquare us)
      | percent => exact absurd rfl (hpercent us)
      | _ => rfl

/-- Operators are taken as long as there are any of their level. -/
theorem endsBefore_chain {p : Token → Prop} {op? : Token → Option BinOp} {operand : Reader}
    {left x : Operand} (hoperand : EndsBefore p operand) (hleft : ∀ t ∈ left.rest.head?, p t)
    (hx : chain bound op? operand left = .ok x) : ∀ t ∈ x.rest.head?, p t ∧ op? t = none := by
  induction left using chain.induct bound op? with
  | case1 left hrest =>
      rw [chain_of_end (by simp [hrest])] at hx
      cases hx
      simp [hrest]
  | case2 left t rest hrest ht =>
      rw [chain_of_end (by simp [hrest, ht])] at hx
      cases hx
      rw [hrest] at hleft ⊢
      intro u hu
      obtain rfl : t = u := Option.some.inj hu
      exact ⟨hleft t hu, ht⟩
  | case3 left t rest hrest op ht ih =>
      obtain ⟨e, height, rest'⟩ := left
      cases hrest
      rw [chain_of_operator ht] at hx
      obtain ⟨right, hright, hx⟩ := bind_eq_ok.1 hx
      split at hx
      · exact ih right ‹_› (hoperand _ right hright) hx
      · cases hx

theorem endsBefore_chained {p : Token → Prop} {op? : Token → Option BinOp}
    (h : EndsBefore p r) : EndsBefore (fun t => p t ∧ op? t = none) (chained bound op? r) := by
  intro ts x hx
  obtain ⟨left, hleft, hx⟩ := bind_eq_ok.1 hx
  exact endsBefore_chain h (h _ _ hleft) hx

/-- A unary expression is not followed by a marker. -/
theorem endsBefore_unary (bound depth : Nat) :
    EndsBefore (fun t => t.isMarker = false) (unary bound depth) := by
  induction depth with
  | zero =>
      intro ts x hx
      cases hx
  | succ depth ih =>
      intro ts x hx
      rw [unary] at hx
      unfold unaryAbove at hx
      split at hx
      · obtain ⟨y, hy, hnode⟩ := bind_eq_ok.1 hx
        rw [node_eq_ok hnode]
        exact ih _ y hy
      · obtain ⟨y, -, hy⟩ := bind_eq_ok.1 hx
        exact endsBefore_postfixes hy

end EndsBefore

/-- A token that goes on with no expression closes a parenthesis or opens an operand. -/
theorem opensOperand_of_ends {t : Token} (hmarker : t.isMarker = false)
    (hmul : BinOp.multiplicative? t = none) (hadd : BinOp.additive? t = none)
    (hright : t ≠ .rightParen) : t.opensOperand := by
  cases t with
  | plus | minus => cases hadd
  | times | divide => cases hmul
  | percent | square => cases hmarker
  | rightParen => exact absurd rfl hright
  | _ => rfl

/-- A sum is followed by nothing, by a closing parenthesis or by an operand. -/
theorem startsOperand_of_sum {bound depth : Nat} {ts : List Token} {x : Operand}
    (hx : sum bound (unary bound depth) ts = .ok x) (hright : x.rest.head? ≠ some .rightParen) :
    StartsOperand x.rest := by
  intro t ht
  obtain ⟨⟨hmarker, hmul⟩, hadd⟩ :=
    endsBefore_chained (endsBefore_chained (endsBefore_unary bound depth)) ts x hx t ht
  exact opensOperand_of_ends hmarker hmul hadd fun h => hright (h ▸ ht)

/-! ### What a reader reports as unclosed -/

/-- A function without its argument, or tokens that end inside a group and are followed by nothing
or by an operand. -/
def Blames (c : Category) (ts : List Token) : Prop :=
  LacksArgument ts ∨ ∃ us rest n h, ts = us ++ rest ∧ Opened c n h us ∧ StartsOperand rest

/-- A reader reports nothing else as unclosed. -/
def Complains (c : Category) (r : Reader) : Prop :=
  ∀ ts, r ts = .error .unclosedParen → Blames c ts

section Blames

variable {bound : Nat} {c d : Category} {ts us : List Token}

theorem node_ne_unclosedParen {e : Expr} {below : Nat} {rest : List Token} :
    node bound e below rest ≠ .error .unclosedParen := by
  unfold node
  split <;> simp

theorem postfixes_ne_unclosedParen {e : Expr} {height : Nat} {rest : List Token} :
    postfixes bound e height rest ≠ .error .unclosedParen := by
  fun_induction postfixes bound e height rest with
  | case1 e height rest hb ih => exact ih
  | case2 => simp
  | case3 e height rest hb ih => exact ih
  | case4 => simp
  | case5 => simp

/-- What is reported behind some tokens is reported for them all. -/
theorem Blames.append (h : Blames d ts) (us : List Token)
    (hopened : ∀ {n h vs}, Opened d n h vs → ∃ n' h', Opened c n' h' (us ++ vs)) :
    Blames c (us ++ ts) := by
  rcases h with hlacks | ⟨vs, rest, n, h, rfl, ho, hrest⟩
  · exact .inl (hlacks.append us)
  · obtain ⟨n', h', ho⟩ := hopened ho
    exact .inr ⟨us ++ vs, rest, n', h', (List.append_assoc ..).symm, ho, hrest⟩

/-- In a chain the operand behind an operator is reported. -/
theorem blames_chain {op? : Token → Option BinOp} {operand : Reader} {left : Operand}
    (hop : ∀ {op t m n us vs x y}, op? t = some op → Derives c m us x → Derives d n vs y →
      Derives c (max m n) (us ++ t :: vs) (.binary op x y))
    (hopened : ∀ {op t m n h us vs x}, op? t = some op → Derives c m us x → Opened d n h vs →
      Opened c (max m n) (max x.height h) (us ++ t :: vs))
    (hd : Yields d operand) (hc : Complains d operand) (h : DerivedFrom c ts left)
    (hx : chain bound op? operand left = .error .unclosedParen) : Blames c ts := by
  induction left using chain.induct bound op? with
  | case1 left hrest =>
      rw [chain_of_end (by simp [hrest])] at hx
      cases hx
  | case2 left t rest hrest ht =>
      rw [chain_of_end (by simp [hrest, ht])] at hx
      cases hx
  | case3 left t rest hrest op ht ih =>
      obtain ⟨e, height, rest'⟩ := left
      cases hrest
      obtain ⟨m, us, rfl, he, hh⟩ := h
      rw [chain_of_operator ht] at hx
      rcases bind_eq_error.1 hx with hfirst | ⟨right, hright, hrest⟩
      · have hblames := (hc _ hfirst).append (us ++ [t])
          fun ho => ⟨_, _, by simpa using hopened ht he ho⟩
        simpa using hblames
      · split at hrest
        · obtain ⟨n, vs, rfl, hr, hhr⟩ := hd _ _ hright
          refine ih right ‹_› ⟨max m n, us ++ t :: vs, by simp, hop ht he hr, ?_⟩ hrest
          simp_all [Expr.height]
        · cases hrest

theorem complains_product {r : Reader} (hr : Yields .unary r) (hc : Complains .unary r) :
    Complains .product (product bound r) := by
  intro ts hx
  rcases bind_eq_error.1 hx with hx | ⟨left, hleft, hx⟩
  · exact (hc ts hx).append [] fun ho => ⟨_, _, ho.ofUnary⟩
  · exact blames_chain .multiply .multiply hr hc ((hr _ _ hleft).mono .ofUnary) hx

theorem complains_sum {r : Reader} (hr : Yields .unary r) (hc : Complains .unary r) :
    Complains .sum (sum bound r) := by
  intro ts hx
  rcases bind_eq_error.1 hx with hx | ⟨left, hleft, hx⟩
  · exact (complains_product hr hc ts hx).append [] fun ho => ⟨_, _, ho.ofProduct⟩
  · exact blames_chain .add .add (yields_product hr) (complains_product hr hc)
      ((yields_product hr _ _ hleft).mono .ofProduct) hx

/-- A group is reported for what is reported inside it, or for what stands in the place of its
closing parenthesis. -/
theorem blames_group {depth : Nat} (hr : Yields .unary (unary bound depth))
    (hc : Complains .unary (unary bound depth)) (us : List Token)
    (hgroup : ∀ {n vs e}, Derives .sum n vs e → Opened .primary (n + 1) e.height (us ++ vs))
    (hopened : ∀ {n h vs}, Opened .sum n h vs → Opened .primary (n + 1) h (us ++ vs))
    (hx : group bound (unary bound depth) ts = .error .unclosedParen) :
    Blames .primary (us ++ ts) := by
  rcases bind_eq_error.1 hx with hsum | ⟨x, hsum, hend⟩
  · exact (complains_sum hr hc ts hsum).append us fun ho => ⟨_, _, hopened ho⟩
  · obtain ⟨n, vs, rfl, he, -⟩ := yields_sum hr _ _ hsum
    refine .inr ⟨us ++ vs, x.rest, n + 1, _, (List.append_assoc ..).symm, hgroup he, ?_⟩
    refine startsOperand_of_sum hsum fun hright => ?_
    obtain ⟨ws, hws⟩ := List.head?_eq_some_iff.1 hright
    rw [hws] at hend
    cases hend

theorem complains_primary {depth : Nat} (hr : Yields .unary (unary bound depth))
    (hc : Complains .unary (unary bound depth)) :
    Complains .primary (primary bound (unary bound depth)) := by
  intro ts hx
  unfold primary at hx
  split at hx
  · cases hx
  · cases hx
  · exact blames_group hr hc [.leftParen] .group .inGroup hx
  · rename_i f ts
    rcases bind_eq_error.1 hx with hgroup | ⟨x, -, hnode⟩
    · exact blames_group hr hc [.function f, .leftParen] (.call f) (.inCall f) hgroup
    · exact absurd hnode node_ne_unclosedParen
  · rename_i f ts hts
    refine .inl ⟨[], f, ts, rfl, fun hparen => ?_⟩
    obtain ⟨us, rfl⟩ := List.head?_eq_some_iff.1 hparen
    exact hts us rfl
  · cases hx

theorem complains_unaryAbove {depth : Nat} (hr : Yields .unary (unary bound depth))
    (hc : Complains .unary (unary bound depth)) :
    Complains .unary (unaryAbove bound (unary bound depth)) := by
  intro ts hx
  unfold unaryAbove at hx
  split at hx
  · rcases bind_eq_error.1 hx with hinner | ⟨x, -, hnode⟩
    · exact (hc _ hinner).append [.minus] fun ho => ⟨_, _, ho.neg⟩
    · exact absurd hnode node_ne_unclosedParen
  · rcases bind_eq_error.1 hx with hprimary | ⟨x, -, hmarkers⟩
    · exact (complains_primary hr hc _ hprimary).append []
        fun ho => ⟨_, _, ho.ofPrimary.ofPower⟩
    · exact absurd hmarkers postfixes_ne_unclosedParen

/-- However deep a reader follows the nesting, it reports nothing else as unclosed. -/
theorem complains_unary (bound depth : Nat) : Complains .unary (unary bound depth) := by
  induction depth with
  | zero =>
      intro ts hx
      cases hx
  | succ depth ih => exact complains_unaryAbove (yields_unary bound depth) ih

end Blames

/-! ### Whole expressions -/

/-- What is reported as unclosed is a parenthesis that is closed behind an expression, a function
without its argument, or tokens that end inside a group. -/
theorem blames_of_ofTokensWithin {bound nesting : Nat} {ts : List Token}
    (h : Expr.ofTokensWithin bound nesting ts = .error .unclosedParen) :
    (∃ us vs n e, ts = us ++ .rightParen :: vs ∧ Derives .sum n us e) ∨ Blames .sum ts := by
  have hyields := yields_unary bound (nesting + 1)
  unfold Expr.ofTokensWithin at h
  split at h
  · cases h
  · rcases bind_eq_error.1 h with hsum | ⟨x, hsum, hend⟩
    · exact .inr (complains_sum hyields (complains_unary _ _) ts hsum)
    · obtain ⟨n, us, rfl, he, -⟩ := yields_sum hyields _ _ hsum
      split at hend
      · cases hend
      · rename_i vs hrest
        exact .inl ⟨us, vs, n, _, by rw [hrest], he⟩
      · cases hend

/-- Tokens that end inside a group, followed by nothing or by an operand, are reported as unclosed
within the bounds. -/
theorem ofTokensWithin_of_opened {bound nesting n h : Nat} {us rest : List Token} (hb : 0 < bound)
    (ho : Opened .sum n h us) (hrest : StartsOperand rest) :
    Expr.ofTokensWithin bound nesting (us ++ rest) =
      if n ≤ nesting ∧ h ≤ bound then .error .unclosedParen else .error .tooDeep := by
  have hsum := ho.refuses hb (nesting + 1) rest hrest
  have hne : (us ++ rest).isEmpty = false := by
    cases us with
    | nil => exact absurd ho.count_lt (Nat.lt_irrefl 0)
    | cons => rfl
  rw [Expr.ofTokensWithin, hne, if_neg Bool.false_ne_true, hsum, refusal]
  by_cases hn : n ≤ nesting ∧ h ≤ bound
  · rw [if_pos ⟨Nat.lt_succ_of_le hn.1, hn.2⟩, if_pos hn]
    rfl
  · rw [if_neg fun hlt => hn ⟨Nat.le_of_lt_succ hlt.1, hlt.2⟩, if_neg hn]
    rfl

/-- Where an operand follows a complete sum inside a group, a parenthesis is reported as unclosed,
whatever comes after it. -/
theorem ofTokens_of_operandsAbut {ts : List Token} (h : OperandsAbut ts) :
    Expr.ofTokens ts = .error .unclosedParen := by
  obtain ⟨us, t, vs, n, height, rfl, ht, ho, hbounds⟩ := h
  have hrest : StartsOperand (t :: vs) := by simpa [StartsOperand] using ht
  rw [Expr.ofTokens, ofTokensWithin_of_opened (by decide) ho hrest, if_pos hbounds]

/-- **A parenthesis that is reported as unclosed has no partner, or a function has no argument,
unless inside a group an operand follows a complete expression.**  There the report is always made,
also when every parenthesis has its partner. -/
theorem unclosedParen_truthful_unless_operandsAbut (ts : List Token) :
    (Expr.ofTokens ts = .error .unclosedParen →
      ¬ Matched ts ∨ LacksArgument ts ∨ OperandsAbut ts) ∧
    (OperandsAbut ts → Expr.ofTokens ts = .error .unclosedParen) := by
  refine ⟨fun h => ?_, ofTokens_of_operandsAbut⟩
  rcases blames_of_ofTokensWithin h with ⟨us, vs, n, e, rfl, hd⟩ | hlacks | hopened
  · exact .inl (not_matched_of_rightParen hd)
  · exact .inr (.inl hlacks)
  · obtain ⟨us, rest, n, height, rfl, ho, hrest⟩ := hopened
    cases rest with
    | nil =>
        rw [List.append_nil]
        exact .inl ho.not_matched
    | cons t vs =>
        -- the report was made within the bounds, for beyond them another one is made
        rw [Expr.ofTokens, ofTokensWithin_of_opened (by decide) ho hrest] at h
        split at h
        · exact .inr (.inr ⟨us, t, vs, n, height, rfl, hrest t rfl, ho, ‹_›⟩)
        · cases h

/-- Two numbers in parentheses: a parenthesis is reported as unclosed, although both parentheses
have their partner and there is no function. -/
theorem unclosedParen_of_matched :
    let ts : List Token := [.leftParen, .number "2", .number "3", .rightParen]
    Expr.ofTokens ts = .error .unclosedParen ∧ Matched ts ∧ ¬ LacksArgument ts := by
  refine ⟨?_, by decide, ?_⟩
  · have hinner : Derives .sum 0 [.number "2"] (.literal "2") :=
      (Derives.number "2").ofPrimary.ofPower.ofUnary.ofProduct
    have hopened : Opened .sum 1 1 [.leftParen, .number "2"] :=
      (Opened.group hinner).ofPrimary.ofPower.ofUnary.ofProduct
    exact ofTokens_of_operandsAbut ⟨[.leftParen, .number "2"], .number "3", [.rightParen], 1, 1,
      rfl, rfl, hopened, by decide⟩
  · rintro ⟨us, f, vs, hts, -⟩
    have hmem : Token.function f ∈ [.leftParen, .number "2", .number "3", .rightParen] := by
      simp [hts]
    simp at hmem

end Calculator
