/-
**The canonical text read back.**

The canonical text of an expression is read back as the same tree, with every percent turned into
the division by one hundred that it is written as.  The value is the same to the last bit, and so is
the height.  What may differ from the typed text is how deep parentheses nest: a square of a square
needs parentheses that a second marker after the first one does not, and such chains are bounded by
the height of the tree, not by the nesting.  Where the canonical text nests too deep, and nowhere
else, it is refused.

Main definitions

* `Calculator.Expr.expandPercent` — percents as divisions;
* `Calculator.Expr.writtenNesting` — how deep the text of an expression nests in a place;
* `Calculator.Level.category` — the level of the grammar that a place demands.

Main results

* `Calculator.derives_tokens` — the tokens of the text of an expression form this expression, with
  percents as divisions;
* `Calculator.evaluate_expandPercent` — writing percents as divisions keeps the value;
* `Calculator.ofText_canonicalText` — the canonical text is read back unless it nests too deep;
* `Calculator.canonicalText_preserves_meaning`, `Calculator.canonicalText_accepted_iff` — what this
  means for tokens, and for values;
* `Calculator.canonicalForm_fixed` — the canonical form is its own canonical form, unless it nests
  too deep.
-/

import Calculator.Expr.Value
import Calculator.Proofs.CanonicalTokens

set_option autoImplicit false

namespace Calculator

/-! ### Percents as divisions -/

/-- The expression with every percent turned into a division by one hundred. -/
def Expr.expandPercent : Expr → Expr
  | .literal text => .literal text
  | .constant k => .constant k
  | .neg x => .neg x.expandPercent
  | .binary op x y => .binary op x.expandPercent y.expandPercent
  | .percent x => .binary .div x.expandPercent (.literal "100")
  | .square x => .square x.expandPercent
  | .call f x => .call f x.expandPercent

/-- A division by one hundred is as high as a percent. -/
theorem height_expandPercent (e : Expr) : e.expandPercent.height = e.height := by
  induction e with
  | literal text => rfl
  | constant k => rfl
  | neg x ih => simp [Expr.expandPercent, Expr.height, ih]
  | binary op x y ihx ihy => simp [Expr.expandPercent, Expr.height, ihx, ihy]
  | percent x ih =>
      have hx := x.height_pos
      simp only [Expr.expandPercent, Expr.height, ih]
      omega
  | square x ih => simp [Expr.expandPercent, Expr.height, ih]
  | call f x ih => simp [Expr.expandPercent, Expr.height, ih]

/-- The divisor that a percent is written with. -/
theorem fold_hundred : (Expr.literal "100").fold = .ok 100 := by
  have hread : readLiteral "100".toList = some 100 := by decide +kernel
  rw [Expr.fold, hread]

/-- The divisor is not zero, so the division that a percent is written as does not fail. -/
theorem apply_div_hundred (v : Float) : BinOp.div.apply v 100 = .ok (v / 100) := by
  have hzero : ((100 : Float) == 0) = false := rfl
  simp [BinOp.apply, hzero]

theorem fold_expandPercent (e : Expr) : e.expandPercent.fold = e.fold := by
  induction e with
  | literal text => rfl
  | constant k => rfl
  | neg x ih => simp only [Expr.expandPercent, Expr.fold, ih]
  | binary op x y ihx ihy => simp only [Expr.expandPercent, Expr.fold, ihx, ihy]
  | percent x ih =>
      calc (Expr.percent x).expandPercent.fold
          = x.expandPercent.fold >>= fun a =>
              (Expr.literal "100").fold >>= fun b => BinOp.div.apply a b := rfl
        _ = x.fold >>= fun a => .ok (a / 100) := by
            rw [ih, fold_hundred]
            simp only [ok_bind, apply_div_hundred]
        _ = (Expr.percent x).fold := rfl
  | square x ih => simp only [Expr.expandPercent, Expr.fold, ih]
  | call f x ih => simp only [Expr.expandPercent, Expr.fold, ih]

/-- Writing percents as divisions keeps the value, and the error if there is none. -/
theorem evaluate_expandPercent (e : Expr) : e.expandPercent.evaluate = e.evaluate := by
  rw [Expr.evaluate, Expr.evaluate, fold_expandPercent]

/-! ### Nesting of the canonical text -/

/-- How deep a text nests, parentheses included if it binds less tightly than its place demands. -/
def placedNesting (level place : Level) (n : Nat) : Nat := if level < place then n + 1 else n

/-- How deep parentheses, calls and minus signs nest in the text of an expression in a place. -/
def Expr.writtenNesting : Expr → Level → Nat
  | .literal _, place => placedNesting .atom place 0
  | .constant _, place => placedNesting .atom place 0
  | .neg x, place => placedNesting .unary place (x.writtenNesting .unary + 1)
  | .binary op x y, place =>
      placedNesting op.level place
        (max (x.writtenNesting op.level) (y.writtenNesting (op.level + 1)))
  | .percent x, place => placedNesting .product place (x.writtenNesting .product)
  | .square x, place => placedNesting .power place (x.writtenNesting .atom)
  | .call _ x, place => placedNesting .atom place (x.writtenNesting 0 + 1)

/-! ### The tokens form the expression -/

/-- The level of the grammar that a place demands. -/
def Level.category : Level → Category
  | 0 => .sum
  | 1 => .sum
  | 2 => .product
  | 3 => .unary
  | 4 => .power
  | _ => .primary

section Derivations

variable {n : Nat} {ts : List Token} {e : Expr}

theorem Derives.loosen_succ {place : Level} (h : Derives (Level.category (place + 1)) n ts e) :
    Derives (Level.category place) n ts e := by
  match place with
  | 0 => exact h
  | 1 => exact h.ofProduct
  | 2 => exact h.ofUnary
  | 3 => exact h.ofPower
  | 4 => exact h.ofPrimary
  | _ + 5 => exact h

/-- What stands in a place may stand in a looser one. -/
theorem Derives.loosen {level place : Level} (hle : place ≤ level)
    (h : Derives (Level.category level) n ts e) : Derives (Level.category place) n ts e := by
  induction hle with
  | refl => exact h
  | step _ ih => exact ih h.loosen_succ

/-- What binds less tightly than its place demands stands there in parentheses. -/
theorem Derives.placed (level place : Level) (h : Derives (Level.category level) n ts e) :
    Derives (Level.category place) (placedNesting level place n) (placedTokens level place ts)
      e := by
  unfold placedNesting placedTokens
  split
  -- any level may stand in parentheses, and a group may stand anywhere
  · have hsum : Derives .sum n ts e := h.loosen (Nat.zero_le level)
    have hgroup : Derives (Level.category (place + 5)) (n + 1)
        (.leftParen :: ts ++ [.rightParen]) e := hsum.group
    exact hgroup.loosen (Nat.le_add_right place 5)
  · exact h.loosen (Nat.le_of_not_lt ‹_›)

end Derivations

/-- The tokens of the text of an expression form this expression, with percents as divisions. -/
theorem derives_tokens (e : Expr) (place : Level) :
    Derives place.category (e.writtenNesting place) (e.tokens place) e.expandPercent := by
  induction e generalizing place with
  | literal text => exact Derives.placed .atom place (.number text)
  | constant k => exact Derives.placed .atom place (.constant k)
  | neg x ih => exact Derives.placed .unary place (ih .unary).neg
  | binary op x y ihx ihy =>
      cases op with
      | add => exact Derives.placed .sum place (.add rfl (ihx 1) (ihy 2))
      | sub => exact Derives.placed .sum place (.add rfl (ihx 1) (ihy 2))
      | mul => exact Derives.placed .product place (.multiply rfl (ihx 2) (ihy 3))
      | div => exact Derives.placed .product place (.multiply rfl (ihx 2) (ihy 3))
  | percent x ih =>
      have hhundred : Derives .unary 0 [.number "100"] (.literal "100") :=
        (Derives.number "100").ofPrimary.ofPower
      have hdivision := Derives.multiply (t := .divide) rfl (ih .product) hhundred
      rw [Nat.max_zero] at hdivision
      exact Derives.placed .product place hdivision
  | square x ih =>
      have hbase : Derives .primary _ _ x.expandPercent := ih .atom
      exact Derives.placed .power place hbase.ofPrimary.square
  | call f x ih =>
      have hargument : Derives .sum _ _ x.expandPercent := ih 0
      exact Derives.placed .atom place (hargument.call f)

/-! ### Reading back -/

/-- The canonical form of a text is the canonical text of the expression that it writes. -/
theorem canonicalForm_of_ofText {s : String} {e : Expr} (h : Expr.ofText s = .ok e) :
    canonicalForm s = .ok e.canonicalText := by
  rw [canonicalForm, h]

section Reading

variable {s : String} {e : Expr}

/-- The height of a tree that was read keeps to its bound. -/
theorem height_le_of_ofText (h : Expr.ofText s = .ok e) : e.height ≤ maxHeight := by
  obtain ⟨ts, n, -, -, -, hheight⟩ := ofText_eq_ok_iff_derives.1 h
  exact hheight

/-- The canonical text is scanned to the tokens of the expression. -/
theorem ofText_tokens (h : Expr.ofText s = .ok e) :
    Token.ofText e.canonicalText = .ok (e.tokens 0) := by
  rw [Token.ofText, Expr.canonicalText, String.toList_ofList]
  exact spells_render (hasNumerals_of_ofText h) 0 none

/-- With percents as divisions the tree is no higher, so it keeps to the bound too. -/
theorem height_expandPercent_le (h : Expr.ofText s = .ok e) :
    e.expandPercent.height ≤ maxHeight := by
  rw [height_expandPercent]
  exact height_le_of_ofText h

/-- The tokens of the canonical text are read as the expression with percents as divisions, unless
they nest too deep. -/
theorem ofTokens_tokens (h : Expr.ofText s = .ok e) :
    Expr.ofTokens (e.tokens 0) =
      if e.writtenNesting 0 ≤ maxNesting then .ok e.expandPercent else .error .tooDeep := by
  rw [Expr.ofTokens, ofTokensWithin_of_derives (by decide : 0 < maxHeight) (derives_tokens e 0)]
  simp only [height_expandPercent_le h, and_true]

/-- **The canonical text is read back unless it nests too deep.** -/
theorem ofText_canonicalText (h : Expr.ofText s = .ok e) :
    Expr.ofText e.canonicalText =
      if e.writtenNesting 0 ≤ maxNesting then .ok e.expandPercent
      else .error (.syntactic .tooDeep) := by
  rw [ofText_of_derives (ofText_tokens h) (derives_tokens e 0)]
  simp only [height_expandPercent_le h, and_true]

/-- **The canonical text keeps the structure and the meaning**: its tokens have no percent sign,
they form the expression with percents as divisions unless they nest too deep, for which they are
refused, and this expression has the same value. -/
theorem canonicalText_preserves_meaning (h : Expr.ofText s = .ok e) :
    (∃ ts, Token.ofText e.canonicalText = .ok ts ∧ .percent ∉ ts ∧
      Expr.ofTokens ts =
        if e.writtenNesting 0 ≤ maxNesting then .ok e.expandPercent else .error .tooDeep) ∧
    e.expandPercent.evaluate = e.evaluate := by
  have htokens : ∃ ts, Token.ofText e.canonicalText = .ok ts ∧ .percent ∉ ts ∧
      Expr.ofTokens ts =
        if e.writtenNesting 0 ≤ maxNesting then .ok e.expandPercent else .error .tooDeep :=
    ⟨e.tokens 0, ofText_tokens h, percent_notMem_tokens e 0, ofTokens_tokens h⟩
  exact ⟨htokens, evaluate_expandPercent e⟩

/-- The square of a percent is written with parentheses that were not typed. -/
theorem canonicalText_preserves_meaning_fifty :
    Expr.ofText "50%²" = .ok (.square (.percent (.literal "50"))) ∧
    (∃ ts, Token.ofText (Expr.square (.percent (.literal "50"))).canonicalText = .ok ts ∧
      .percent ∉ ts ∧
      Expr.ofTokens ts = .ok (.square (.binary .div (.literal "50") (.literal "100")))) ∧
    (Expr.square (.binary .div (.literal "50") (.literal "100"))).evaluate =
      (Expr.square (.percent (.literal "50"))).evaluate :=
  ⟨by decide +kernel, canonicalText_preserves_meaning (s := "50%²") (by decide +kernel)⟩

end Reading

/-! ### The canonical form of a canonical form -/

/-- A percent is written as the division that it is expanded to. -/
theorem render_expandPercent (e : Expr) (place : Level) :
    e.expandPercent.render place = e.render place := by
  induction e generalizing place with
  | literal text => rfl
  | constant k => rfl
  | neg x ih => simp only [Expr.expandPercent, Expr.render, ih]
  | binary op x y ihx ihy => simp only [Expr.expandPercent, Expr.render, ihx, ihy]
  | percent x ih =>
      -- a number needs no parentheses to stand on the right of a division
      have hhundred : (Expr.literal "100").render .unary = ['1', '0', '0'] := rfl
      calc (Expr.percent x).expandPercent.render place
          = placed .product place
              (x.expandPercent.render .product ++ '/' :: (Expr.literal "100").render .unary) := rfl
        _ = placed .product place (x.render .product ++ ['/', '1', '0', '0']) := by
            rw [ih, hhundred]
        _ = (Expr.percent x).render place := rfl
  | square x ih => simp only [Expr.expandPercent, Expr.render, ih]
  | call f x ih => simp only [Expr.expandPercent, Expr.render, ih]

theorem canonicalText_expandPercent (e : Expr) :
    e.expandPercent.canonicalText = e.canonicalText := by
  rw [Expr.canonicalText, Expr.canonicalText, render_expandPercent]

/-- What has a canonical form writes an expression, whose canonical text it is. -/
theorem canonicalForm_eq_ok {s c : String} (h : canonicalForm s = .ok c) :
    ∃ e, Expr.ofText s = .ok e ∧ c = e.canonicalText := by
  cases hs : Expr.ofText s with
  | error err =>
      rw [canonicalForm, hs] at h
      cases h
  | ok e =>
      rw [canonicalForm_of_ofText hs] at h
      exact ⟨e, rfl, (Except.ok.inj h).symm⟩

/-- The canonical form of a canonical text is this text again, unless it nests too deep. -/
theorem canonicalForm_canonicalText {s : String} {e : Expr} (h : Expr.ofText s = .ok e) :
    canonicalForm e.canonicalText =
      if e.writtenNesting 0 ≤ maxNesting then .ok e.canonicalText
      else .error (.syntactic .tooDeep) := by
  have hread := ofText_canonicalText h
  by_cases hn : e.writtenNesting 0 ≤ maxNesting
  · rw [if_pos hn] at hread ⊢
    rw [canonicalForm_of_ofText hread, canonicalText_expandPercent]
  · rw [if_neg hn] at hread ⊢
    rw [canonicalForm, hread]

/-- **The canonical form is a fixed point.**  Every expression is written like the one with percents
as divisions; and the canonical form of a text is its own canonical form, or, if the expression
nests too deep when it is written, it is refused for that. -/
theorem canonicalForm_fixed :
    (∀ e : Expr, e.expandPercent.canonicalText = e.canonicalText) ∧
    ∀ s c, canonicalForm s = .ok c → ∃ e, Expr.ofText s = .ok e ∧
      canonicalForm c =
        if e.writtenNesting 0 ≤ maxNesting then .ok c else .error (.syntactic .tooDeep) := by
  refine ⟨canonicalText_expandPercent, ?_⟩
  intro s c hc
  obtain ⟨e, he, rfl⟩ := canonicalForm_eq_ok hc
  exact ⟨e, he, canonicalForm_canonicalText he⟩

/-- The opposite of a percent under a square, and its canonical form. -/
theorem canonicalForm_fixed_fifty :
    canonicalForm "−50%² × π" = .ok "-(50/100)^2*pi" ∧
    (Expr.square (.percent (.literal "50"))).expandPercent.canonicalText =
      (Expr.square (.percent (.literal "50"))).canonicalText ∧
    ∃ e, Expr.ofText "−50%² × π" = .ok e ∧
      canonicalForm "-(50/100)^2*pi" =
        if e.writtenNesting 0 ≤ maxNesting then .ok "-(50/100)^2*pi"
        else .error (.syntactic .tooDeep) := by
  have hform : canonicalForm "−50%² × π" = .ok "-(50/100)^2*pi" := by decide +kernel
  exact ⟨hform, canonicalForm_fixed.1 _, canonicalForm_fixed.2 _ _ hform⟩

/-! ### Squares of squares -/

/-- A literal, squared again and again. -/
def Expr.squares (text : String) : Nat → Expr
  | 0 => .literal text
  | n + 1 => .square (Expr.squares text n)

theorem height_squares (text : String) (n : Nat) : (Expr.squares text n).height = n + 1 := by
  induction n with
  | zero => rfl
  | succ n ih => rw [Expr.squares, Expr.height, ih]

/-- Under a square, every further square is in parentheses of its own. -/
theorem writtenNesting_squares_atom (text : String) (n : Nat) :
    (Expr.squares text n).writtenNesting .atom = n := by
  induction n with
  | zero => rfl
  | succ n ih =>
      rw [Expr.squares, Expr.writtenNesting, ih]
      rfl

/-- The outermost square needs no parentheses, all others do. -/
theorem writtenNesting_squares_succ (text : String) (n : Nat) :
    (Expr.squares text (n + 1)).writtenNesting 0 = n := by
  rw [Expr.squares, Expr.writtenNesting, writtenNesting_squares_atom]
  rfl

/-- Markers one after the other do not nest. -/
theorem derives_squares (text : String) (n : Nat) :
    Derives .power 0 (.number text :: List.replicate n .square) (Expr.squares text n) := by
  induction n with
  | zero => exact (Derives.number text).ofPrimary
  | succ n ih =>
      rw [List.replicate_succ', ← List.cons_append]
      exact ih.square

theorem spells_squares (n : Nat) :
    Spells (List.replicate n '²') (List.replicate n .square) := by
  induction n with
  | zero => exact spells_nil
  | succ n ih => exact ih.cons rfl

/-- As many markers are read as the height of a tree allows. -/
theorem ofText_squares {cs : List Char} (h : IsNumeral cs) {n : Nat} (hn : n < maxHeight) :
    Expr.ofText (String.ofList (cs ++ List.replicate n '²')) =
      .ok (Expr.squares (String.ofList cs) n) := by
  have hrest : Separates (List.replicate n '²') := by
    cases n with
    | zero => exact ⟨rfl, rfl, rfl⟩
    | succ n => exact separates_cons (by decide) _
  refine ofText_eq_ok_iff_derives.2 ⟨.number (String.ofList cs) :: List.replicate n .square, 0,
    ?_, ?_, Nat.zero_le _, ?_⟩
  · rw [Token.ofText, String.toList_ofList]
    exact (spells_numeral h).append hrest (spells_squares n) none
  · exact (derives_squares _ n).ofPower.ofUnary.ofProduct
  · rw [height_squares]
    exact hn

/-- One remains one, however often it is squared. -/
theorem fold_squares_one (n : Nat) : (Expr.squares "1" n).fold = .ok 1 := by
  have hread : readLiteral "1".toList = some 1 := by decide +kernel
  have hmul : (1 : Float) * 1 = 1 := rfl
  induction n with
  | zero => rw [Expr.squares, Expr.fold, hread]
  | succ n ih =>
      rw [Expr.squares, Expr.fold, ih, ok_bind, hmul]
      rfl

/-! ### Where the canonical text is accepted -/

section Accepted

variable {s : String} {e : Expr}

/-- **The canonical text is accepted, and gives the value of the typed text, exactly if it does not
nest too deep.** -/
theorem canonicalText_accepted_iff (h : Expr.ofText s = .ok e) :
    ((∃ x, Expr.ofText e.canonicalText = .ok x) ↔ e.writtenNesting 0 ≤ maxNesting) ∧
    ((canonicalForm s >>= evaluateText) = evaluateText s ↔ e.writtenNesting 0 ≤ maxNesting) := by
  rw [canonicalForm_of_ofText h, ok_bind, evaluateText_of_ofText h]
  have hread := ofText_canonicalText h
  by_cases hn : e.writtenNesting 0 ≤ maxNesting
  · rw [if_pos hn] at hread
    have hvalue : evaluateText e.canonicalText = e.evaluate.mapError .arithmetic := by
      rw [evaluateText_of_ofText hread, evaluate_expandPercent]
    exact ⟨iff_of_true ⟨_, hread⟩ hn, iff_of_true hvalue hn⟩
  · rw [if_neg hn] at hread
    have hvalue : evaluateText e.canonicalText = .error (.syntactic .tooDeep) := by
      rw [evaluateText, hread]
    rw [hread, hvalue]
    -- the typed text has a value or an arithmetic error, never a syntax error
    refine ⟨iff_of_false (by simp) hn, iff_of_false ?_ hn⟩
    cases e.evaluate <;> simp [Except.mapError]

/-- Two squares in a row are far from the bound. -/
theorem canonicalText_accepted_iff_two :
    Expr.ofText "2²²" = .ok (Expr.squares "2" 2) ∧
    ((∃ x, Expr.ofText (Expr.squares "2" 2).canonicalText = .ok x) ↔
      (Expr.squares "2" 2).writtenNesting 0 ≤ maxNesting) ∧
    ((canonicalForm "2²²" >>= evaluateText) = evaluateText "2²²" ↔
      (Expr.squares "2" 2).writtenNesting 0 ≤ maxNesting) :=
  ⟨by decide +kernel, canonicalText_accepted_iff (by decide +kernel)⟩

/-- One, squared 258 times in a row, has the value one, and its canonical text is refused: the tree
is far from the largest height, but the text has 257 parentheses inside each other. -/
theorem canonicalText_refused_squares :
    let s := String.ofList (['1'] ++ List.replicate 258 '²')
    ∃ e, Expr.ofText s = .ok e ∧ evaluateText s = .ok 1 ∧
      Expr.ofText e.canonicalText = .error (.syntactic .tooDeep) ∧
      (canonicalForm s >>= evaluateText) = .error (.syntactic .tooDeep) := by
  intro s
  have hone : IsNumeral ['1'] := ⟨by decide, by decide, by decide⟩
  have hs : Expr.ofText s = .ok (Expr.squares "1" 258) := ofText_squares hone (by decide)
  have hnesting : ¬ (Expr.squares "1" 258).writtenNesting 0 ≤ maxNesting := by
    rw [writtenNesting_squares_succ "1" 257]
    decide
  have hread : Expr.ofText (Expr.squares "1" 258).canonicalText = .error (.syntactic .tooDeep) := by
    rw [ofText_canonicalText hs, if_neg hnesting]
  have hvalue : evaluateText s = .ok 1 := by
    have hfinite : (1 : Float).isFinite = true := by decide +kernel
    rw [evaluateText_of_ofText hs, Expr.evaluate, fold_squares_one]
    simp [hfinite, Except.mapError]
  refine ⟨Expr.squares "1" 258, hs, hvalue, hread, ?_⟩
  rw [canonicalForm_of_ofText hs, ok_bind, evaluateText, hread]

end Accepted

end Calculator
