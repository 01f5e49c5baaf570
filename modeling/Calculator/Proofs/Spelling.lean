/-
**The ways to write a list of tokens.**

Scanning takes the characters of a text one lexeme after the other.  Here the same texts are
described from the side of the tokens: every token has its spellings, a text is put together from
spellings and blanks, and what stands next to a spelling must neither go on with it nor turn it into
something else.  One token need not be written at all, the parenthesis that a root sign opens by
itself.

Main definitions

* `Calculator.Token.signs`, `Calculator.Token.Spelling` — the spellings of a token;
* `Calculator.Apart` — what may stand before and behind a spelling;
* `Calculator.Writes` — a text is made of blanks and of the spellings of some tokens, in order.

Main results

* `Calculator.lexeme_of_spelling`, `Calculator.lexeme_cases` — a spelling that stands apart is a
  lexeme, and every lexeme is a blank, a spelling that stands apart, or a root sign that opens a
  parenthesis;
* `Calculator.startsAfresh_of_lexeme` — no number goes on where a lexeme ends;
* `Calculator.scan_of_writes`, `Calculator.writes_of_scan` — a text has the tokens that it writes;
* `Calculator.ofText_eq_ok_iff_writes` — **a text is taken apart into some tokens if and only if it
  is made of blanks and of the spellings of these tokens, in order**.
-/

import Calculator.Proofs.Pieces

set_option autoImplicit false

namespace Calculator

/-! ### Spellings -/

/-- The signs that write a token, each of them all by itself. -/
def Token.signs : Token → List Char
  | plus => ['+']
  | minus => ['-', '−']
  | times => ['*', '×']
  | divide => ['/', '÷']
  | percent => ['%']
  | square => ['²']
  | leftParen => ['(']
  | rightParen => [')']
  | function .sqrt => ['√']
  | constant .pi => ['π']
  | _ => []

/-- The ways to write a token. -/
inductive Token.Spelling : Token → List Char → Prop where
  /-- A number is written as its own text, which is that of a numeral. -/
  | numeral {text : String} (h : IsNumeral text.toList) : Spelling (.number text) text.toList
  /-- A sign is enough by itself. -/
  | sign {t : Token} {c : Char} (h : c ∈ t.signs) : Spelling t [c]
  /-- A function may be named, in any letter case. -/
  | function {f : Function} {word : List Char} (h : word.map Char.toLower = f.name) :
      Spelling (.function f) word
  /-- A constant may be named, in any letter case. -/
  | constant {k : Constant} {word : List Char} (h : word.map Char.toLower = k.name) :
      Spelling (.constant k) word
  /-- The square may be written as a power, with blanks in front of the exponent. -/
  | power {blanks : List Char} (h : ∀ b ∈ blanks, isBlank b) :
      Spelling .square ('^' :: (blanks ++ ['2']))

/-- What stands before a spelling and behind it leaves it as it is: no number goes on in another
one, no word in another one, and `^2` in no number; `π` stands behind no word, and the sign `√` in
front of a parenthesis. -/
structure Apart (before : Option Char) (chars rest : List Char) : Prop where
  number : startsWith isNumberChar chars →
    before.any isNumberChar = false ∧ startsWith isNumberChar rest = false
  word : startsWith isWordStart chars → startsWith isWordChar rest = false
  power : chars.head? = some '^' → startsWith isNumberChar rest = false
  pi : chars = ['π'] → before.any isWordChar = false
  root : chars = ['√'] → startsWith (· == '(') (dropBlanks rest)

/-- A text is made of blanks and of the spellings of some tokens, in order, given the character
before it.  The only token that is not written is the parenthesis right behind a root sign, if the
next character that is no blank is not a parenthesis. -/
inductive Writes : Option Char → List Char → List Token → Prop where
  | nil (before : Option Char) : Writes before [] []
  | blank {before : Option Char} {c : Char} {cs : List Char} {ts : List Token} (hc : isBlank c)
      (h : Writes (some c) cs ts) : Writes before (c :: cs) ts
  | token {before : Option Char} {t : Token} {chars rest : List Char} {ts : List Token}
      (ht : t.Spelling chars) (hapart : Apart before chars rest)
      (h : Writes chars.getLast? rest ts) : Writes before (chars ++ rest) (t :: ts)
  | opened {before : Option Char} {cs : List Char} {ts : List Token}
      (hparen : startsWith (· == '(') (dropBlanks cs) = false) (h : Writes (some '√') cs ts) :
      Writes before ('√' :: cs) (.function .sqrt :: .leftParen :: ts)

variable {before : Option Char} {c : Char} {cs chars rest word : List Char} {t : Token}
  {ts : List Token} {x : Lexeme}

/-! ### Names -/

theorem isAlpha_of_isAlpha_toLower (h : c.toLower.isAlpha) : c.isAlpha := by
  unfold Char.toLower at h
  split at h
  · rename_i hupper
    obtain ⟨hlow, hhigh⟩ := hupper
    rw [isAlpha_iff_toNat]
    exact .inl ⟨UInt32.le_iff_toNat_le.1 hlow, UInt32.le_iff_toNat_le.1 hhigh⟩
  · exact h

/-- A word in any letter case consists of letters if the word in lower case does. -/
theorem all_isAlpha_of_map_toLower {name : List Char} (hname : name.all Char.isAlpha)
    (h : word.map Char.toLower = name) : word.all Char.isAlpha := by
  rw [← h, List.all_map, List.all_eq_true] at hname
  exact List.all_eq_true.2 fun c hc => isAlpha_of_isAlpha_toLower (hname c hc)

theorem Function.all_isAlpha_name (f : Function) : f.name.all Char.isAlpha := by
  cases f <;> decide

theorem Constant.all_isAlpha_name (k : Constant) : k.name.all Char.isAlpha := by
  cases k <;> decide

/-- A word spells a token only by its lower case. -/
theorem ofWord?_congr {word' : List Char} (h : word.map Char.toLower = word'.map Char.toLower) :
    Token.ofWord? word = Token.ofWord? word' := by
  simp only [Token.ofWord?, h]

/-- The name of a function in any letter case spells it. -/
theorem ofWord?_of_function {f : Function} (h : word.map Char.toLower = f.name) :
    Token.ofWord? word = some (.function f) := by
  have hname : f.name.map Char.toLower = f.name := by cases f <;> rfl
  rw [← Token.ofWord?_name f]
  exact ofWord?_congr (h.trans hname.symm)

/-- The name of a constant in any letter case spells it. -/
theorem ofWord?_of_constant {k : Constant} (h : word.map Char.toLower = k.name) :
    Token.ofWord? word = some (.constant k) := by
  have hname : k.name.map Char.toLower = k.name := by cases k <;> rfl
  rw [← Token.ofWord?_constant_name k]
  exact ofWord?_congr (h.trans hname.symm)

/-- A word that spells a token is one of its spellings. -/
theorem spelling_of_ofWord? (h : Token.ofWord? word = some t) : t.Spelling word := by
  unfold Token.ofWord? at h
  split at h
  case h_1 hword => cases h; exact .function hword
  case h_2 hword => cases h; exact .function hword
  case h_3 hword => cases h; exact .function hword
  case h_4 hword => cases h; exact .function hword
  case h_5 hword => cases h; exact .constant hword
  case h_6 hword => cases h; exact .constant hword
  case h_7 => cases h

/-- A word of letters that spells a token is its lexeme, where no word goes on. -/
theorem lexeme_of_word (hletters : (c :: cs).all Char.isAlpha)
    (ht : Token.ofWord? (c :: cs) = some t) (hapart : Apart before (c :: cs) rest) :
    lexeme before c (cs ++ rest) = .ok ⟨[t], cs.length⟩ := by
  obtain ⟨hc, hcs⟩ : c.isAlpha ∧ cs.all Char.isAlpha := by simpa using hletters
  have hstart : isWordStart c := by simp [isWordStart, hc]
  have hword : cs.all isWordChar := by
    rw [List.all_eq_true] at hcs ⊢
    intro d hd
    simp [isWordChar, Char.isAlphanum, hcs d hd]
  exact lexeme_word_append hstart hword ht (hapart.word hstart) before

/-! ### Signs -/

/-- A sign is a symbol, the root sign or `π`. -/
theorem sign_cases (h : c ∈ t.signs) :
    Token.ofSymbol? c = some t ∨ c = '√' ∧ t = .function .sqrt ∨ c = 'π' ∧ t = .constant .pi := by
  unfold Token.signs at h
  split at h
  case h_9 => exact .inr (.inl ⟨List.mem_singleton.1 h, rfl⟩)
  case h_10 => exact .inr (.inr ⟨List.mem_singleton.1 h, rfl⟩)
  case h_11 => cases h
  all_goals
    simp only [List.mem_cons, List.not_mem_nil, or_false] at h
    left
    rcases h with rfl | rfl <;> rfl

theorem mem_signs_of_ofSymbol? (h : Token.ofSymbol? c = some t) : c ∈ t.signs := by
  unfold Token.ofSymbol? at h
  split at h <;> cases h <;> decide

/-! ### From spellings to lexemes -/

theorem IsNumeral.ne_nil (h : IsNumeral cs) : cs ≠ [] := by
  rintro rfl
  simpa using h.any

/-- After `^`: blanks and a `2` where no number goes on. -/
theorem powerLexeme_of_blanks {blanks : List Char} (hblanks : ∀ b ∈ blanks, isBlank b)
    (hrest : startsWith isNumberChar rest = false) :
    powerLexeme (blanks ++ '2' :: rest) = .ok ⟨[.square], blanks.length + 1⟩ := by
  have hdrop : dropBlanks (blanks ++ '2' :: rest) = '2' :: rest := by
    rw [dropBlanks_append_blank hblanks, dropBlanks_cons (by decide)]
  have hlength : (blanks ++ '2' :: rest).length - rest.length = blanks.length + 1 := by
    simp only [List.length_append, List.length_cons]
    omega
  simp only [powerLexeme, hdrop, hrest, hlength]
  rfl

/-- A spelling that stands apart is the lexeme of its token. -/
theorem lexeme_of_spelling (ht : t.Spelling (c :: cs)) (hapart : Apart before (c :: cs) rest) :
    lexeme before c (cs ++ rest) = .ok ⟨[t], cs.length⟩ := by
  generalize hchars : c :: cs = chars at ht
  cases ht with
  | @numeral text h =>
      rw [← hchars] at h
      have hc : isNumberChar c := List.all_eq_true.1 h.all c List.mem_cons_self
      have htext : String.ofList (c :: cs) = text := by rw [hchars, String.ofList_toList]
      rw [lexeme_numeral_append h (hapart.number hc).2, htext]
  | sign h =>
      obtain ⟨rfl, rfl⟩ := List.cons.inj hchars
      rcases sign_cases h with hsymbol | ⟨rfl, rfl⟩ | ⟨rfl, rfl⟩
      · simp [lexeme, isBlank_of_ofSymbol? hsymbol, hsymbol]
      · have hlexeme : lexeme before '√' rest = .ok (rootLexeme rest) := rfl
        rw [List.nil_append, hlexeme, rootLexeme, if_pos (hapart.root rfl)]
        rfl
      · have hlexeme : lexeme before 'π' rest =
          if before.any isWordChar then .error ⟨0, 'π'⟩ else .ok ⟨[.constant .pi], 0⟩ := rfl
        rw [List.nil_append, hlexeme, hapart.pi rfl]
        rfl
  | @function f word h =>
      subst hchars
      exact lexeme_of_word (all_isAlpha_of_map_toLower f.all_isAlpha_name h)
        (ofWord?_of_function h) hapart
  | @constant k word h =>
      subst hchars
      exact lexeme_of_word (all_isAlpha_of_map_toLower k.all_isAlpha_name h)
        (ofWord?_of_constant h) hapart
  | @power blanks h =>
      obtain ⟨rfl, rfl⟩ := List.cons.inj hchars
      have hlexeme : lexeme before '^' (blanks ++ ['2'] ++ rest) =
        powerLexeme (blanks ++ ['2'] ++ rest) := rfl
      rw [hlexeme, List.append_assoc, List.singleton_append,
        powerLexeme_of_blanks h (hapart.power rfl), List.length_append, List.length_singleton]

/-! ### From lexemes to spellings -/

/-- No number goes on from the character before a text into the text. -/
def StartsAfresh (before : Option Char) (cs : List Char) : Prop :=
  before.any isNumberChar → startsWith isNumberChar cs = false

/-- What `c`, followed by `cs`, writes as a lexeme `x`. -/
inductive WritesLexeme (before : Option Char) (c : Char) (cs : List Char) (x : Lexeme) : Prop where
  | blank (hc : isBlank c) (hx : x = ⟨[], 0⟩)
  | token (t : Token) (hx : x.tokens = [t]) (ht : t.Spelling (c :: cs.take x.extra))
      (hapart : Apart before (c :: cs.take x.extra) (cs.drop x.extra))
  | opened (hc : c = '√') (hx : x = ⟨[.function .sqrt, .leftParen], 0⟩)
      (hparen : startsWith (· == '(') (dropBlanks cs) = false)

/-- What stands next to a symbol is of no importance. -/
theorem apart_of_symbol (hc : Token.ofSymbol? c = some t) : Apart before [c] rest := by
  have hne {d : Char} (hd : Token.ofSymbol? d = none) : c ≠ d := by
    rintro rfl
    simp [hc] at hd
  refine ⟨fun h => ?_, fun h => ?_, fun h => ?_, fun h => ?_, fun h => ?_⟩
  · have hword : isWordChar c ∨ c = '.' := isWordChar_of_isNumberChar h
    simp [ofSymbol?_of_isWordChar hword] at hc
  · have hword : isWordChar c := isWordChar_of_isWordStart h
    simp [ofSymbol?_of_isWordChar (.inl hword)] at hc
  · exact absurd (Option.some.inj h) (hne rfl)
  · exact absurd (List.cons.inj h).1 (hne rfl)
  · exact absurd (List.cons.inj h).1 (hne rfl)

/-- A word stands apart where no word goes on. -/
theorem apart_of_word (hc : isWordStart c) (hrest : startsWith isWordChar rest = false) :
    Apart before (c :: cs) rest := by
  have hne {d : Char} (hd : isWordStart d = false) : c ≠ d := by
    rintro rfl
    simp [hc] at hd
  refine ⟨fun h => ?_, fun _ => hrest, fun h => ?_, fun h => ?_, fun h => ?_⟩
  · simp [isWordStart_of_isNumberChar h] at hc
  · exact absurd (Option.some.inj h) (hne rfl)
  · exact absurd (List.cons.inj h).1 (hne rfl)
  · exact absurd (List.cons.inj h).1 (hne rfl)

/-- A number stands apart where no number goes on. -/
theorem apart_of_number (hc : isNumberChar c) (hbefore : before.any isNumberChar = false)
    (hrest : startsWith isNumberChar rest = false) : Apart before (c :: cs) rest := by
  have hne {d : Char} (hd : isNumberChar d = false) : c ≠ d := by
    rintro rfl
    simp [hc] at hd
  refine ⟨fun _ => ⟨hbefore, hrest⟩, fun h => ?_, fun h => ?_, fun h => ?_, fun h => ?_⟩
  · have hstart : isWordStart c := h
    simp [isWordStart_of_isNumberChar hc] at hstart
  · exact absurd (Option.some.inj h) (hne rfl)
  · exact absurd (List.cons.inj h).1 (hne rfl)
  · exact absurd (List.cons.inj h).1 (hne rfl)

theorem apart_of_power (hrest : startsWith isNumberChar rest = false) :
    Apart before ('^' :: cs) rest where
  number h := absurd (show isNumberChar '^' from h) (by decide)
  word h := absurd (show isWordStart '^' from h) (by decide)
  power _ := hrest
  pi h := absurd (List.cons.inj h).1 (by decide)
  root h := absurd (List.cons.inj h).1 (by decide)

theorem apart_of_pi (hbefore : before.any isWordChar = false) : Apart before ['π'] rest where
  number h := absurd h (by decide)
  word h := absurd h (by decide)
  power h := absurd h (by decide)
  pi _ := hbefore
  root h := absurd h (by decide)

theorem apart_of_root (hrest : startsWith (· == '(') (dropBlanks rest)) :
    Apart before ['√'] rest where
  number h := absurd h (by decide)
  word h := absurd h (by decide)
  power h := absurd h (by decide)
  pi h := absurd h (by decide)
  root _ := hrest

theorem spelling_of_isNumeral (h : IsNumeral chars) :
    (Token.number (String.ofList chars)).Spelling chars := by
  have hspelling : (Token.number (String.ofList chars)).Spelling (String.ofList chars).toList :=
    .numeral (by rwa [String.toList_ofList])
  rwa [String.toList_ofList] at hspelling

/-- Every lexeme is a blank, a spelling that stands apart, or a root sign that opens a
parenthesis. -/
theorem lexeme_cases (h : lexeme before c cs = .ok x) (hfresh : StartsAfresh before (c :: cs)) :
    WritesLexeme before c cs x := by
  cases startsLexeme h with
  | blank hc hx => exact .blank hc hx
  | symbol t hc hx =>
      subst hx
      exact .token t rfl (.sign (mem_signs_of_ofSymbol? hc)) (apart_of_symbol hc)
  | power hc hx =>
      obtain ⟨blanks, r, rfl, hblanks, hr, rfl⟩ := exists_blanks_of_powerLexeme hx
      subst hc
      have htake : (blanks ++ '2' :: r).take (blanks.length + 1) = blanks ++ ['2'] := by
        simp [List.take_append, List.take_of_length_le]
      have hdrop : (blanks ++ '2' :: r).drop (blanks.length + 1) = r := by
        simp [List.drop_append]
      refine .token .square rfl ?_ ?_
      · rw [htake]
        exact .power hblanks
      · rw [hdrop]
        exact apart_of_power hr
  | pi hc hbefore hx =>
      subst hc hx
      exact .token (.constant .pi) rfl (.sign (List.mem_singleton.2 rfl)) (apart_of_pi hbefore)
  | root hc hx =>
      subst hc
      rw [rootLexeme] at hx
      split at hx
      · rename_i hparen
        subst hx
        exact .token (.function .sqrt) rfl (.sign (List.mem_singleton.2 rfl)) (apart_of_root hparen)
      · rename_i hparen
        exact .opened rfl hx (Bool.eq_false_iff.2 hparen)
  | word hc hx =>
      obtain ⟨t, hword, rfl⟩ := wordLexeme_eq_ok hx
      refine .token t rfl ?_ (apart_of_word hc (startsWith_drop_takeWhile isWordChar cs))
      rw [take_length_takeWhile]
      exact spelling_of_ofWord? hword
  | number hc hx =>
      obtain ⟨hnumeral, rfl⟩ := numberLexeme_eq_ok hc hx
      have hbefore : before.any isNumberChar = false := by
        rw [Bool.eq_false_iff]
        intro hbefore
        have hstart : isNumberChar c = false := hfresh hbefore
        simp [hc] at hstart
      refine .token _ rfl ?_
        (apart_of_number hc hbefore (startsWith_drop_takeWhile isNumberChar cs))
      rw [take_length_takeWhile]
      exact spelling_of_isNumeral hnumeral

/-! ### Where numbers end -/

/-- A spelling that ends like a number stands where no number goes on. -/
theorem Apart.startsAfresh (ht : t.Spelling chars) (hapart : Apart before chars rest) :
    StartsAfresh chars.getLast? rest := by
  have hletters {word : List Char} (hword : word.all Char.isAlpha) :
      StartsAfresh word.getLast? rest := by
    intro hlast
    obtain ⟨d, hd, hnumber⟩ := (Option.any_eq_true ..).1 hlast
    have hstart : isWordStart d := by
      simp [isWordStart, List.all_eq_true.1 hword d (List.mem_of_getLast? hd)]
    simp [isWordStart_of_isNumberChar hnumber] at hstart
  intro hlast
  cases ht with
  | numeral h =>
      obtain ⟨c, cs, hcs⟩ := List.exists_cons_of_ne_nil h.ne_nil
      rw [hcs] at hapart
      exact (hapart.number (List.all_eq_true.1 h.all c (by simp [hcs]))).2
  | sign h => exact (hapart.number hlast).2
  | @function f word h => exact hletters (all_isAlpha_of_map_toLower f.all_isAlpha_name h) hlast
  | @constant k word h => exact hletters (all_isAlpha_of_map_toLower k.all_isAlpha_name h) hlast
  | power => exact hapart.power rfl

/-- No number goes on where a lexeme ends. -/
theorem startsAfresh_of_lexeme (h : lexeme before c cs = .ok x)
    (hfresh : StartsAfresh before (c :: cs)) :
    StartsAfresh ((c :: cs)[x.extra]?) (cs.drop x.extra) := by
  cases lexeme_cases h hfresh with
  | blank hc hx =>
      subst hx
      intro hlast
      have hnumber : isNumberChar c := hlast
      rcases isWordChar_of_isNumberChar hnumber with hword | rfl
      · simp [isBlank_of_isWordChar hword] at hc
      · exact absurd hc (by decide)
  | token t hx ht hapart =>
      rw [← getLast?_piece h]
      exact hapart.startsAfresh ht
  | opened hc hx =>
      subst hc hx
      intro hlast
      exact absurd (show isNumberChar '√' from hlast) (by decide)

/-! ### The tokens that a text writes -/

/-- A spelling is not empty. -/
theorem Token.Spelling.ne_nil (h : t.Spelling chars) : chars ≠ [] := by
  cases h with
  | numeral h => exact h.ne_nil
  | sign => exact List.cons_ne_nil _ _
  | @function f word h =>
      rintro rfl
      cases f <;> cases h
  | @constant k word h =>
      rintro rfl
      cases k <;> cases h
  | power => exact List.cons_ne_nil _ _

/-- A text has the tokens that it writes. -/
theorem scan_of_writes (h : Writes before cs ts) : scan before cs = .ok ts := by
  induction h with
  | nil before => exact scan_nil before
  | @blank before c cs ts hc _ ih =>
      have hlexeme : lexeme before c cs = .ok ⟨[], 0⟩ := by simp [lexeme, hc]
      rw [scan_cons, hlexeme, ok_bind]
      exact congrArg (prependTokens 1 []) ih
  | @token before t chars rest ts ht hapart _ ih =>
      obtain ⟨c, cs, rfl⟩ := List.exists_cons_of_ne_nil ht.ne_nil
      rw [scan_of_lexeme (lexeme_of_spelling ht hapart), ih]
      rfl
  | @opened before cs ts hparen _ ih =>
      have hlexeme : lexeme before '√' cs = .ok (rootLexeme cs) := rfl
      rw [rootLexeme, hparen] at hlexeme
      rw [scan_cons, hlexeme, ok_bind]
      exact congrArg (prependTokens 1 [.function .sqrt, .leftParen]) ih

/-- A text writes the tokens that it has. -/
theorem writes_of_scan (hfresh : StartsAfresh before cs) (h : scan before cs = .ok ts) :
    Writes before cs ts := by
  -- each lexeme leaves a text that no number goes on in
  induction before, cs using scan.induct generalizing ts with
  | case1 before =>
      rw [scan_nil] at h
      cases h
      exact .nil before
  | case2 before c cs ih =>
      rw [scan_cons] at h
      obtain ⟨x, hx, hscan⟩ := bind_eq_ok.1 h
      obtain ⟨us, hus, rfl⟩ := prependTokens_eq_ok hscan
      have hrest := ih x (startsAfresh_of_lexeme hx hfresh) hus
      cases lexeme_cases hx hfresh with
      | blank hc hblank =>
          subst hblank
          exact .blank hc hrest
      | token t ht hspelling hapart =>
          rw [← getLast?_piece hx] at hrest
          have hwrites := Writes.token hspelling hapart hrest
          rw [List.cons_append, List.take_append_drop] at hwrites
          rw [ht]
          exact hwrites
      | opened hc hroot hparen =>
          subst hc hroot
          exact .opened hparen hrest

theorem startsAfresh_none (cs : List Char) : StartsAfresh none cs := by
  intro h
  cases h

/-- **A text is taken apart into some tokens if and only if it is made of blanks and of the
spellings of these tokens, in order.**  Nothing of it is dropped, nothing is invented but the
parenthesis that a root sign opens, and nothing that is so written is refused. -/
theorem ofText_eq_ok_iff_writes (s : String) (ts : List Token) :
    Token.ofText s = .ok ts ↔ Writes none s.toList ts :=
  ⟨writes_of_scan (startsAfresh_none s.toList), scan_of_writes⟩

end Calculator
