/-
**What stands right before a constant.**

The sign `π` is refused right behind a letter, a digit or an underscore, so that neither `2π` nor
`eπ` is read as a product.  The names `pi` and `e` are never asked what they stand behind.  A word
runs on as far as it can, so they cannot stand behind a letter or an underscore, nor behind a digit
of the same word; but a number ends where its digits end, and the square `^2` ends with its `2`.
Behind those the names are read: `2e` is a number and a constant, although `2π` is refused.

Main definitions

* `Calculator.Piece.SpellsConstant` — the ways to write a constant;
* `Calculator.Piece.EndsInDigit` — a number or a square that is written with a digit at its end.

Main results

* `Calculator.lexeme_of_constant`, `Calculator.endsInDigit_of_lexeme` — what one lexeme says of the
  constant it gives, and of a word behind it;
* `Calculator.wordChar_before_constant_iff` — **a constant stands right behind a word character if
  it is a name behind a number or a square that ends in a digit**;
* `Calculator.ofText_numeral_word`, `Calculator.ofText_numeral_pi` — there every name is read, and
  the sign is refused;
* `Calculator.two_then_e` — the shortest such text.
-/

import Calculator.Proofs.Pieces

set_option autoImplicit false

namespace Calculator

variable {before : Option Char} {c d : Char} {cs : List Char} {x : Lexeme} {k : Constant}

/-! ### Constants as pieces -/

/-- A constant is written as the sign `π` or as its name, in any letter case. -/
def Piece.SpellsConstant (p : Piece) (k : Constant) : Prop :=
  p.tokens = [.constant k] ∧
    (p.chars = ['π'] ∧ k = .pi ∨ Token.ofWord? p.chars = some (.constant k))

/-- A number or a square that is written with a digit at its end. -/
def Piece.EndsInDigit (p : Piece) : Prop :=
  (p.tokens = [.square] ∨ ∃ text, p.tokens = [.number text]) ∧ p.chars.getLast?.any Char.isDigit

/-- A symbol spells no constant. -/
theorem ofSymbol?_ne_constant (c : Char) (k : Constant) :
    Token.ofSymbol? c ≠ some (.constant k) := by
  unfold Token.ofSymbol?
  split <;> simp

/-- A lexeme with a constant is the constant, and the sign `π` stands behind no word character. -/
theorem lexeme_of_constant (h : lexeme before c cs = .ok x) (hk : .constant k ∈ x.tokens) :
    (x.piece c cs).SpellsConstant k ∧
      ((x.piece c cs).chars = ['π'] ∧ before.any isWordChar = false ∨
        (x.piece c cs).chars.head?.any isWordStart) := by
  cases startsLexeme h with
  | blank _ hx => simp [hx] at hk
  | symbol t hc hx =>
      obtain rfl : .constant k = t := by simpa [hx] using hk
      exact absurd hc (ofSymbol?_ne_constant c k)
  | power _ hx =>
      obtain ⟨r, -, -, rfl⟩ := powerLexeme_eq_ok hx
      simp at hk
  | pi hc hb hx =>
      obtain rfl : k = .pi := by simpa [hx] using hk
      have hchars : (x.piece c cs).chars = ['π'] := by simp [Lexeme.piece, hx, hc]
      exact ⟨⟨by rw [hx]; rfl, .inl ⟨hchars, rfl⟩⟩, .inl ⟨hchars, hb⟩⟩
  | root _ hx =>
      rw [hx, rootLexeme] at hk
      split at hk <;> simp at hk
  | word hc hx =>
      obtain ⟨t, hword, rfl⟩ := wordLexeme_eq_ok hx
      obtain rfl : .constant k = t := by simpa using hk
      refine ⟨⟨rfl, .inr ?_⟩, .inr hc⟩
      rw [← hword, Lexeme.piece, take_length_takeWhile]
  | number hc hx =>
      obtain ⟨-, rfl⟩ := numberLexeme_eq_ok hc hx
      simp at hk

/-! ### Words right behind a lexeme -/

/-- The square that `^` writes ends with the `2`. -/
theorem getElem?_of_powerLexeme (h : powerLexeme cs = .ok x) : (c :: cs)[x.extra]? = some '2' := by
  obtain ⟨blanks, r, rfl, -, -, rfl⟩ := exists_blanks_of_powerLexeme h
  rw [List.getElem?_cons_succ]
  simp

/-- A lexeme that ends with a word character right before another one is a number or a square, and
this character is a digit. -/
theorem endsInDigit_of_lexeme (h : lexeme before c cs = .ok x)
    (hlast : (x.piece c cs).chars.getLast?.any isWordChar)
    (hnext : startsWith isWordChar (cs.drop x.extra)) : (x.piece c cs).EndsInDigit := by
  cases startsLexeme h with
  | blank hc hx =>
      have hword : isWordChar c := by simpa [Lexeme.piece, hx] using hlast
      simp [isBlank_of_isWordChar hword] at hc
  | symbol t hc hx =>
      have hword : isWordChar c := by simpa [Lexeme.piece, hx] using hlast
      simp [ofSymbol?_of_isWordChar (.inl hword)] at hc
  | power _ hx =>
      refine ⟨.inl ?_, ?_⟩
      · obtain ⟨r, -, -, rfl⟩ := powerLexeme_eq_ok hx
        rfl
      · rw [getLast?_piece h, getElem?_of_powerLexeme hx]
        decide
  | pi hc _ hx =>
      have hword : isWordChar 'π' := by simpa [Lexeme.piece, hx, hc] using hlast
      exact absurd hword (by decide)
  | root hc hx =>
      have hextra : x.extra = 0 := by
        rw [hx, rootLexeme]
        split <;> rfl
      have hword : isWordChar '√' := by simpa [Lexeme.piece, hextra, hc] using hlast
      exact absurd hword (by decide)
  | word _ hx =>
      -- a word goes on as far as it can
      obtain ⟨t, -, rfl⟩ := wordLexeme_eq_ok hx
      rw [startsWith_drop_takeWhile] at hnext
      cases hnext
  | number hc hx =>
      obtain ⟨hnumeral, rfl⟩ := numberLexeme_eq_ok hc hx
      refine ⟨.inr ⟨_, rfl⟩, ?_⟩
      rw [Option.any_eq_true] at hlast ⊢
      obtain ⟨d, hd, hword⟩ := hlast
      have hmem := List.mem_of_getLast? hd
      rw [Lexeme.piece, take_length_takeWhile] at hmem
      have hnumber : isNumberChar d := List.all_eq_true.1 hnumeral.all d hmem
      refine ⟨d, hd, ?_⟩
      simp only [isNumberChar, Bool.or_eq_true, beq_iff_eq] at hnumber
      rcases hnumber with hdigit | rfl
      · exact hdigit
      · exact absurd hword (by decide)

/-! ### The character before a constant -/

/-- A piece that ends with a word character, right before another one, ends with a digit. -/
theorem endsInDigit_of_splits {q p : Piece} {rs : List Piece} (h : Splits before cs (q :: p :: rs))
    (hq : q.chars.getLast?.any isWordChar) (hp : p.chars.head?.any isWordChar) :
    q.EndsInDigit := by
  cases h with
  | @cons _ c cs x _ hx hps =>
      have hnext : startsWith isWordChar (cs.drop x.extra) := by
        generalize cs.drop x.extra = rest at hps
        cases hps with
        | cons => exact hp
      exact endsInDigit_of_lexeme hx hq hnext

/-- The last character of some pieces is the last one of the last piece. -/
theorem Splits.getLast?_flatMap_concat {q : Piece} {qs rs : List Piece}
    (h : Splits before cs (qs ++ q :: rs)) :
    ((qs ++ [q]).flatMap Piece.chars).getLast? = q.chars.getLast? := by
  obtain ⟨rest, -, hrest⟩ := h.of_append
  cases hrest with
  | cons => simp [Lexeme.piece, List.getLast?_append, List.getLast?_cons]

theorem isWordChar_of_isDigit (h : c.isDigit) : isWordChar c := by
  simp [isWordChar, Char.isAlphanum, h]

/-- A constant right behind a word character is a name behind a number or a square, and this ends
with a digit. -/
theorem Splits.endsInDigit_before_constant {qs rs : List Piece} {p : Piece}
    (h : Splits none cs (qs ++ p :: rs)) (hk : .constant k ∈ p.tokens)
    (hword : (qs.flatMap Piece.chars).getLast?.any isWordChar) :
    p.chars ≠ ['π'] ∧ ∃ q, qs.getLast? = some q ∧ q.EndsInDigit := by
  obtain ⟨rest, -, hrest⟩ := h.of_append
  rw [Option.or_none] at hrest
  have hstart : p.chars.head?.any isWordStart := by
    cases hrest with
    | cons hx _ => exact (lexeme_of_constant hx hk).2.resolve_left fun hpi => by simp [hword] at hpi
  refine ⟨?_, ?_⟩
  · intro hpi
    rw [hpi] at hstart
    exact absurd hstart (by decide)
  · -- there is a piece in front, and it ends right before a word
    have hnext : p.chars.head?.any isWordChar := by
      rw [Option.any_eq_true] at hstart ⊢
      obtain ⟨c, hc, hstart⟩ := hstart
      exact ⟨c, hc, isWordChar_of_isWordStart hstart⟩
    cases hq : qs.getLast? with
    | none => simp [List.getLast?_eq_none_iff.1 hq] at hword
    | some q =>
        obtain ⟨qs, rfl⟩ := List.getLast?_eq_some_iff.1 hq
        rw [List.append_assoc] at h
        rw [h.getLast?_flatMap_concat] at hword
        obtain ⟨front, -, hsplits⟩ := h.of_append
        exact ⟨q, rfl, endsInDigit_of_splits hsplits hword hnext⟩

/-- Behind a number or a square that ends with a digit there is a word character. -/
theorem Splits.wordChar_of_endsInDigit {q : Piece} {qs rs : List Piece}
    (h : Splits before cs (qs ++ rs)) (hq : qs.getLast? = some q) (hdigit : q.EndsInDigit) :
    (qs.flatMap Piece.chars).getLast?.any isWordChar := by
  obtain ⟨qs, rfl⟩ := List.getLast?_eq_some_iff.1 hq
  rw [List.append_assoc] at h
  rw [h.getLast?_flatMap_concat, Option.any_eq_true]
  obtain ⟨d, hd, hdigit⟩ := (Option.any_eq_true ..).1 hdigit.2
  exact ⟨d, hd, isWordChar_of_isDigit hdigit⟩

/-! ### Names behind a numeral -/

/-- A name right behind a numeral is read, whatever the numeral ends with. -/
theorem splits_numeral_word {e : Char} {ds es : List Char} {t : Token} (hds : IsNumeral (d :: ds))
    (he : isWordStart e) (hes : es.all isWordChar) (ht : Token.ofWord? (e :: es) = some t) :
    Splits before (d :: ds ++ e :: es)
      [⟨d :: ds, [.number (String.ofList (d :: ds))]⟩, ⟨e :: es, [t]⟩] := by
  have hstop : startsWith isNumberChar (e :: es) = false := by
    cases hnumber : isNumberChar e with
    | false => exact hnumber
    | true => simp [isWordStart_of_isNumberChar hnumber] at he
  have hlexeme (before : Option Char) : lexeme before e (es ++ []) = .ok ⟨[t], es.length⟩ :=
    lexeme_word_append he hes ht rfl before
  rw [List.append_nil] at hlexeme
  have hsplits : Splits ((d :: (ds ++ e :: es))[ds.length]?) (e :: es) [⟨e :: es, [t]⟩] := by
    simpa [Lexeme.piece] using Splits.cons (hlexeme _) (by simpa using Splits.nil _)
  simpa [Lexeme.piece] using
    Splits.cons (lexeme_numeral_append hds hstop before) (by simpa using hsplits)

/-- **Every name is read right behind every numeral.** -/
theorem ofText_numeral_word {e : Char} {ds es : List Char} {t : Token} (hds : IsNumeral (d :: ds))
    (he : isWordStart e) (hes : es.all isWordChar) (ht : Token.ofWord? (e :: es) = some t) :
    Token.ofText (String.ofList (d :: ds ++ e :: es)) =
      .ok [.number (String.ofList (d :: ds)), t] := by
  rw [Token.ofText, String.toList_ofList]
  exact scan_eq_ok.2 ⟨_, splits_numeral_word hds he hes ht, rfl⟩

/-- The sign `π` is refused right behind a numeral that ends with a digit. -/
theorem ofText_numeral_pi {ds : List Char} (hds : IsNumeral (d :: ds))
    (hlast : (d :: ds).getLast?.any Char.isDigit) :
    Token.ofText (String.ofList (d :: ds ++ ['π'])) = .error ⟨ds.length + 1, 'π'⟩ := by
  have hbefore : ((d :: (ds ++ ['π']))[ds.length]?).any isWordChar := by
    rw [← List.cons_append, List.getElem?_append_left (Nat.lt_succ_self _)]
    obtain ⟨l, hl, hdigit⟩ := (Option.any_eq_true ..).1 hlast
    rw [List.getLast?_eq_getElem?, List.length_cons, Nat.add_sub_cancel] at hl
    rw [hl]
    exact isWordChar_of_isDigit hdigit
  have hpi (before : Option Char) (h : before.any isWordChar) :
      scan before ['π'] = .error ⟨0, 'π'⟩ := by
    have hlexeme : lexeme before 'π' [] = .error ⟨0, 'π'⟩ := by
      rw [show lexeme before 'π' [] =
        if before.any isWordChar then .error ⟨0, 'π'⟩ else .ok ⟨[.constant .pi], 0⟩ from rfl, h]
      rfl
    rw [scan_cons, hlexeme]
    rfl
  rw [Token.ofText, String.toList_ofList, List.cons_append, scan_cons,
    lexeme_numeral_append hds rfl, ok_bind, List.drop_left, hpi _ hbefore]
  simp [LexicalError.shift]

/-- The pieces of a number and a constant right behind it. -/
theorem splits_two_e :
    Splits none "2e".toList [⟨['2'], [.number "2"]⟩, ⟨['e'], [.constant .e]⟩] := by
  change Splits none (['2'] ++ ['e']) _
  exact splits_numeral_word ⟨rfl, by decide, rfl⟩ rfl rfl rfl

/-! ### Which constants stand alone -/

/-- **Constants stand alone, except for their names behind a digit.**  The text of the tokens is cut
into pieces, and every constant among them is one piece, written as the sign `π` or as its name.
The character right before it is a letter, a digit or an underscore if it is a name and the piece
before it is a number or a square with a digit at its end, and only then. -/
theorem wordChar_before_constant_iff {s : String} {ts : List Token} (h : Token.ofText s = .ok ts) :
    ∃ ps, Splits none s.toList ps ∧ ps.flatMap Piece.chars = s.toList ∧
      ps.flatMap Piece.tokens = ts ∧ ∀ qs p rs k, ps = qs ++ p :: rs → .constant k ∈ p.tokens →
        p.SpellsConstant k ∧
        ((qs.flatMap Piece.chars).getLast?.any isWordChar ↔
          p.chars ≠ ['π'] ∧ ∃ q, qs.getLast? = some q ∧ q.EndsInDigit) := by
  obtain ⟨ps, hps, htokens⟩ := scan_eq_ok.1 h
  refine ⟨ps, hps, hps.flatMap_chars, htokens, ?_⟩
  rintro qs p rs k rfl hk
  refine ⟨?_, hps.endsInDigit_before_constant hk, ?_⟩
  · obtain ⟨rest, -, hrest⟩ := hps.of_append
    cases hrest with
    | cons hx _ => exact (lexeme_of_constant hx hk).1
  · rintro ⟨-, q, hq, hdigit⟩
    exact hps.wordChar_of_endsInDigit hq hdigit

/-- A number and a constant right behind it, where the character before the constant is a digit. -/
theorem wordChar_before_constant_two_e :
    Token.ofText "2e" = .ok [.number "2", .constant .e] ∧
    ∃ ps, Splits none "2e".toList ps ∧ ps.flatMap Piece.chars = "2e".toList ∧
      ps.flatMap Piece.tokens = [.number "2", .constant .e] ∧
      ∀ qs p rs k, ps = qs ++ p :: rs → .constant k ∈ p.tokens →
        p.SpellsConstant k ∧
        ((qs.flatMap Piece.chars).getLast?.any isWordChar ↔
          p.chars ≠ ['π'] ∧ ∃ q, qs.getLast? = some q ∧ q.EndsInDigit) := by
  have htokens : Token.ofText "2e" = .ok [.number "2", .constant .e] :=
    scan_eq_ok.2 ⟨_, splits_two_e, rfl⟩
  exact ⟨htokens, wordChar_before_constant_iff htokens⟩

/-- The constant of `2e` is read although it stands right behind a digit. -/
theorem two_then_e :
    Token.ofText "2e" = .ok [.number "2", .constant .e] ∧
    ¬ ∀ ps, Splits none "2e".toList ps → ∀ qs p rs k, ps = qs ++ p :: rs →
      .constant k ∈ p.tokens → (qs.flatMap Piece.chars).getLast?.any isWordChar = false := by
  refine ⟨scan_eq_ok.2 ⟨_, splits_two_e, rfl⟩, fun hlone => ?_⟩
  have hfirst := hlone _ splits_two_e [⟨['2'], [.number "2"]⟩] ⟨['e'], [.constant .e]⟩ [] .e rfl
    (List.mem_singleton.2 rfl)
  exact absurd hfirst (by decide)

end Calculator
