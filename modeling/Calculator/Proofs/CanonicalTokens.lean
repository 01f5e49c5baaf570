/-
**The tokens of the canonical text.**

The canonical text is written without blanks, so its pieces stand right next to each other.  None
of them runs into the next one: a name or a number is followed by a symbol or by nothing, and every
symbol is a token all by itself.  Scanning the text of an expression therefore gives the tokens of
its parts, put together as the text was.  The one condition is that the literals of the tree are
spelt like numbers, as those of every tree are that was read from a text.

Main definitions

* `Calculator.Token.continues` — the tokens that go on after an operand;
* `Calculator.Spells` — what a text is scanned to, whatever stands before it;
* `Calculator.Expr.tokens` — the tokens of the text of an expression in a place;
* `Calculator.Expr.HasNumerals` — all literals are spelt like numbers.

Main results

* `Calculator.hasNumerals_of_ofText` — what is read from a text has such literals;
* `Calculator.spells_render` — the text of an expression is scanned to its tokens;
* `Calculator.percent_notMem_tokens` — no percent sign is written.
-/

import Calculator.Expr.Canonical
import Calculator.Proofs.Reading
import Calculator.Proofs.Scanning

set_option autoImplicit false

namespace Calculator

/-! ### Texts and their tokens -/

/-- Whether a token goes on after an operand: an operator or a marker. -/
def Token.continues : Token → Bool
  | .plus => true
  | .minus => true
  | .times => true
  | .divide => true
  | .percent => true
  | .square => true
  | _ => false

/-- The text `cs` is scanned to `ts`, whatever stands before it. -/
def Spells (cs : List Char) (ts : List Token) : Prop := ∀ before, scan before cs = .ok ts

section Spells

variable {c : Char} {cs ds : List Char} {t : Token} {ts us : List Token}

theorem spells_nil : Spells [] [] := scan_nil

/-- A text goes on with a text that nothing runs into. -/
theorem Spells.append (h : Spells cs ts) (hds : Separates ds) (h' : Spells ds us) :
    Spells (cs ++ ds) (ts ++ us) := by
  intro before
  rw [scan_append hds (h before), h', prependTokens_ok]

/-- A symbol in front of a text. -/
theorem Spells.cons (ht : Token.ofSymbol? c = some t) (h : Spells cs ts) :
    Spells (c :: cs) (t :: ts) := by
  intro before
  rw [scan_symbol ht, h]
  rfl

/-- A name in front of a text that does not go on with a word. -/
theorem Spells.word (c : Char) (cs : List Char) (hc : isWordStart c) (hcs : cs.all isWordChar)
    (ht : Token.ofWord? (c :: cs) = some t) (hds : startsWith isWordChar ds = false)
    (h : Spells ds us) : Spells (c :: cs ++ ds) (t :: us) := by
  intro before
  rw [scan_word hc hcs ht hds, h]
  rfl

theorem spells_numeral (h : IsNumeral cs) : Spells cs [.number (String.ofList cs)] :=
  fun before => scan_numeral h before

/-- The square, as the canonical text writes it. -/
theorem spells_square : Spells ['^', '2'] [.square] := by
  intro before
  have hlexeme : lexeme before '^' ['2'] = .ok ⟨[.square], 1⟩ := rfl
  rw [scan_cons, hlexeme]
  simp

theorem spells_constant (k : Constant) : Spells k.name [.constant k] := by
  cases k with
  | pi => exact Spells.word 'p' ['i'] rfl rfl rfl rfl spells_nil
  | e => exact Spells.word 'e' [] rfl rfl rfl rfl spells_nil

/-- The name of a function, with the parenthesis that opens its argument. -/
theorem spells_function (f : Function) (h : Spells cs ts) :
    Spells (f.name ++ '(' :: cs) (.function f :: .leftParen :: ts) := by
  have hparen : Spells ('(' :: cs) (.leftParen :: ts) := h.cons rfl
  cases f with
  | sin => exact Spells.word 's' ['i', 'n'] rfl rfl rfl rfl hparen
  | cos => exact Spells.word 'c' ['o', 's'] rfl rfl rfl rfl hparen
  | tan => exact Spells.word 't' ['a', 'n'] rfl rfl rfl rfl hparen
  | sqrt => exact Spells.word 's' ['q', 'r', 't'] rfl rfl rfl rfl hparen

/-- A text separates if its first character is part of no word and no number, no blank and no
opening parenthesis. -/
theorem separates_cons (hc : (isWordChar c || isNumberChar c || isBlank c || c == '(') = false)
    (cs : List Char) : Separates (c :: cs) := by
  simp only [Bool.or_eq_false_iff] at hc
  obtain ⟨⟨⟨hword, hnumber⟩, hblank⟩, hparen⟩ := hc
  refine ⟨hword, hnumber, ?_⟩
  rw [dropBlanks_cons (by simp [hblank])]
  exact hparen

/-- A symbol that goes on after an operand is no part of the operand. -/
theorem separates_symbol (hc : Token.ofSymbol? c = some t) (ht : t.continues) (cs : List Char) :
    Separates (c :: cs) := by
  refine separates_cons ?_ cs
  unfold Token.ofSymbol? at hc
  split at hc
  · cases hc
    cases ht
  all_goals first | decide | cases hc

end Spells

/-! ### The tokens of an expression -/

/-- The token that writes an operation. -/
def BinOp.token : BinOp → Token
  | .add => .plus
  | .sub => .minus
  | .mul => .times
  | .div => .divide

theorem BinOp.ofSymbol?_symbol (op : BinOp) : Token.ofSymbol? op.symbol = some op.token := by
  cases op <;> rfl

theorem BinOp.continues_token (op : BinOp) : op.token.continues := by
  cases op <;> rfl

/-- The tokens of a text, in parentheses if it binds less tightly than its place demands. -/
def placedTokens (level place : Level) (ts : List Token) : List Token :=
  if level < place then .leftParen :: ts ++ [.rightParen] else ts

/-- The tokens of the text of an expression in a place that demands a level. -/
def Expr.tokens : Expr → Level → List Token
  | .literal text, place => placedTokens .atom place [.number text]
  | .constant k, place => placedTokens .atom place [.constant k]
  | .neg x, place => placedTokens .unary place (.minus :: x.tokens .unary)
  | .binary op x y, place =>
      placedTokens op.level place (x.tokens op.level ++ op.token :: y.tokens (op.level + 1))
  | .percent x, place => placedTokens .product place (x.tokens .product ++ [.divide, .number "100"])
  | .square x, place => placedTokens .power place (x.tokens .atom ++ [.square])
  | .call f x, place =>
      placedTokens .atom place (.function f :: .leftParen :: x.tokens 0 ++ [.rightParen])

/-- No percent sign is among the tokens of a canonical text. -/
theorem percent_notMem_tokens (e : Expr) (place : Level) : .percent ∉ e.tokens place := by
  have hplaced {level place : Level} {ts : List Token} (h : .percent ∉ ts) :
      .percent ∉ placedTokens level place ts := by
    unfold placedTokens
    split
    · simpa using h
    · exact h
  induction e generalizing place with
  | literal text => exact hplaced (by simp)
  | constant k => exact hplaced (by simp)
  | neg x ih => exact hplaced (by simpa using ih _)
  | binary op x y ihx ihy =>
      have hop : .percent ≠ op.token := by cases op <;> simp [BinOp.token]
      exact hplaced (by simp [ihx, ihy, hop])
  | percent x ih => exact hplaced (by simpa using ih _)
  | square x ih => exact hplaced (by simpa using ih _)
  | call f x ih => exact hplaced (by simpa using ih _)

/-! ### Literals -/

/-- All literals of an expression are spelt like numbers. -/
def Expr.HasNumerals (e : Expr) : Prop := ∀ text ∈ e.literals, IsNumeral text.toList

/-- What is read from a text has only literals that are spelt like numbers. -/
theorem hasNumerals_of_ofText {s : String} {e : Expr} (h : Expr.ofText s = .ok e) :
    e.HasNumerals := by
  obtain ⟨ts, n, hscan, hderives, -, -⟩ := ofText_eq_ok_iff_derives.1 h
  intro text htext
  exact isNumeral_of_scan hscan (hderives.number_mem htext)

/-! ### Scanning the text of an expression -/

section Render

variable {cs : List Char} {ts : List Token}

/-- In parentheses a text is scanned to its own tokens, whatever stands before: no word ends in the
parenthesis that it has in front of it now. -/
theorem spells_parenthesized (h : scan none cs = .ok ts) :
    Spells (parenthesized cs) (.leftParen :: ts ++ [.rightParen]) := by
  have hclosed : Spells [')'] [.rightParen] := spells_nil.cons rfl
  have hword : (some '(').any isWordChar = (none : Option Char).any isWordChar := rfl
  have hinner : scan (some '(') cs = .ok ts := (scan_congr hword cs).trans h
  intro before
  rw [parenthesized, List.cons_append, scan_symbol rfl,
    scan_append (separates_cons (by decide) []) hinner, hclosed]
  rfl

theorem spells_placed (level place : Level) (h : Spells cs ts) :
    Spells (placed level place cs) (placedTokens level place ts) := by
  unfold placed placedTokens
  split
  · exact spells_parenthesized (h none)
  · exact h

/-- The text of an expression is scanned to its tokens. -/
theorem spells_render {e : Expr} (h : e.HasNumerals) (place : Level) :
    Spells (e.render place) (e.tokens place) := by
  -- of two pieces that meet, the second starts with a symbol or the first is one
  induction e generalizing place with
  | literal text =>
      have hnumeral := spells_numeral (h text (by simp [Expr.literals]))
      rw [String.ofList_toList] at hnumeral
      exact spells_placed _ _ hnumeral
  | constant k => exact spells_placed _ _ (spells_constant k)
  | neg x ih => exact spells_placed _ _ ((ih h .unary).cons rfl)
  | binary op x y ihx ihy =>
      have hx := ihx (fun text ht => h text (by simp [Expr.literals, ht])) op.level
      have hy := ihy (fun text ht => h text (by simp [Expr.literals, ht])) (op.level + 1)
      exact spells_placed _ _
        (hx.append (separates_symbol op.ofSymbol?_symbol op.continues_token _)
          (hy.cons op.ofSymbol?_symbol))
  | percent x ih =>
      have hhundred : Spells ['1', '0', '0'] [.number "100"] :=
        spells_numeral ⟨by decide, by decide, by decide⟩
      exact spells_placed _ _
        ((ih h .product).append (separates_cons (by decide) _) (hhundred.cons rfl))
  | square x ih =>
      exact spells_placed _ _
        ((ih h .atom).append (separates_cons (by decide) _) spells_square)
  | call f x ih =>
      have hargument : Spells (x.render 0 ++ [')']) (x.tokens 0 ++ [.rightParen]) :=
        (ih h 0).append (separates_cons (by decide) []) (spells_nil.cons rfl)
      have hcall := spells_function f hargument
      rw [← List.cons_append, ← List.append_assoc] at hcall
      exact spells_placed _ _ hcall

end Render

end Calculator
