/-
**Scanning piece by piece.**

A lexeme looks beyond its own characters: a word and a number run on as far as they can, `^` and `√`
look past blanks for what they need, and `π` looks back.  Two texts written one after the other
therefore need not scan to their tokens one after the other.  They do if the second one starts with
a character that nothing in front of it could take: that is what this module proves, so that a
printed text can be scanned along the pieces it was printed from.

Main definitions

* `Calculator.IsNumeral` — digits with at most one point, and at least one digit;
* `Calculator.Separates` — a text that no lexeme in front of it runs into.

Main results

* `Calculator.secondPoint?_eq_none_iff` — a run has no second point if it has at most one;
* `Calculator.isNumeral_of_scan` — the numbers among the tokens of a text are numerals;
* `Calculator.scan_append` — scanning a text that is followed by a separating one;
* `Calculator.scan_symbol`, `Calculator.scan_word`, `Calculator.scan_numeral` — the tokens of the
  pieces.
-/

import Calculator.Token.Scan
import Mathlib.Data.List.TakeWhile

set_option autoImplicit false

namespace Calculator

/-! ### Tokens in front -/

@[simp] theorem prependTokens_ok (n : Nat) (ts us : List Token) :
    prependTokens n ts (.ok us) = .ok (ts ++ us) := rfl

@[simp] theorem prependTokens_error (n : Nat) (ts : List Token) (e : LexicalError) :
    prependTokens n ts (.error e) = .error (e.shift n) := rfl

/-- Two texts in front of a third are one text in front of it. -/
theorem prependTokens_prependTokens (m n : Nat) (ts us : List Token)
    (r : Except LexicalError (List Token)) :
    prependTokens m ts (prependTokens n us r) = prependTokens (m + n) (ts ++ us) r := by
  cases r with
  | ok vs => simp
  | error e => simp [LexicalError.shift, Nat.add_assoc]

theorem prependTokens_eq_ok {n : Nat} {ts vs : List Token}
    {r : Except LexicalError (List Token)} (h : prependTokens n ts r = .ok vs) :
    ∃ us, r = .ok us ∧ vs = ts ++ us := by
  cases r with
  | ok us =>
      cases h
      exact ⟨us, rfl, rfl⟩
  | error e => cases h

theorem prependTokens_eq_error {n : Nat} {ts : List Token} {e : LexicalError}
    {r : Except LexicalError (List Token)} (h : prependTokens n ts r = .error e) :
    ∃ e', r = .error e' ∧ e = e'.shift n := by
  cases r with
  | ok us => cases h
  | error e' =>
      cases h
      exact ⟨e', rfl, rfl⟩

/-! ### Numerals -/

/-- Up to a character, a text is shorter if the character occurs. -/
theorem length_takeWhile_lt_iff (a : Char) (cs : List Char) :
    (cs.takeWhile (· != a)).length < cs.length ↔ a ∈ cs := by
  induction cs with
  | nil => simp
  | cons c cs ih =>
      by_cases hc : c = a
      · simp [hc]
      · simp [hc, ih, Ne.symm hc]

/-- A run of digits and points has no second point if it has at most one point. -/
theorem secondPoint?_eq_none_iff (run : List Char) :
    secondPoint? run = none ↔ run.count '.' ≤ 1 := by
  induction run with
  | nil => simp [secondPoint?]
  | cons c run ih =>
      by_cases hc : c = '.'
      · simp [secondPoint?, hc, length_takeWhile_lt_iff, List.count_eq_zero]
      · rw [List.count_cons_of_ne hc, ← ih]
        simp only [secondPoint?, List.dropWhile_cons, List.takeWhile_cons, bne_iff_ne, ne_eq, hc,
          not_false_eq_true, if_true, List.length_cons]
        cases run.dropWhile (· != '.') <;> simp

/-- Digits with at most one point, and at least one digit. -/
structure IsNumeral (cs : List Char) : Prop where
  /-- There is nothing but digits and points. -/
  all : cs.all isNumberChar
  /-- There is at most one point. -/
  count_le : cs.count '.' ≤ 1
  /-- There is a digit. -/
  any : cs.any Char.isDigit

/-- A digit is not the point. -/
theorem count_point_of_digits {cs : List Char} (h : ∀ c ∈ cs, c.isDigit) : cs.count '.' = 0 :=
  List.count_eq_zero.2 fun hpoint => absurd (h '.' hpoint) (by decide)

/-- Digits alone are a numeral. -/
theorem isNumeral_of_digits {ds : List Char} (hne : ds ≠ []) (hds : ∀ d ∈ ds, d.isDigit) :
    IsNumeral ds where
  all := by
    rw [List.all_eq_true]
    intro d hd
    simp [isNumberChar, hds d hd]
  count_le := by simp [count_point_of_digits hds]
  any := by
    rw [List.any_eq_true]
    obtain ⟨d, hd⟩ := List.exists_mem_of_ne_nil _ hne
    exact ⟨d, hd, hds d hd⟩

/-- Digits with a point among them are a numeral. -/
theorem isNumeral_of_fraction {whole fraction : List Char} (hne : whole ++ fraction ≠ [])
    (hds : ∀ d ∈ whole ++ fraction, d.isDigit) : IsNumeral (whole ++ '.' :: fraction) := by
  -- without the point the digits are a numeral already
  obtain ⟨hall, -, hany⟩ := isNumeral_of_digits hne hds
  obtain ⟨hwhole, hfraction⟩ := List.forall_mem_append.1 hds
  rw [List.all_append, Bool.and_eq_true] at hall
  rw [List.any_append, Bool.or_eq_true] at hany
  refine ⟨?_, ?_, ?_⟩
  · rw [List.all_append, List.all_cons, hall.1, hall.2]
    rfl
  · rw [List.count_append, List.count_cons_self, count_point_of_digits hwhole,
      count_point_of_digits hfraction]
  · rw [List.any_append, List.any_cons, Bool.or_eq_true]
    exact hany.imp_right fun h => by rw [h, Bool.or_true]

/-! ### What a lexeme can be -/

/-- The ways for `c`, followed by `cs`, to start a lexeme `x`. -/
inductive StartsLexeme (before : Option Char) (c : Char) (cs : List Char) (x : Lexeme) : Prop where
  | blank (hc : isBlank c) (hx : x = ⟨[], 0⟩)
  | symbol (t : Token) (hc : Token.ofSymbol? c = some t) (hx : x = ⟨[t], 0⟩)
  | power (hc : c = '^') (hx : powerLexeme cs = .ok x)
  | pi (hc : c = 'π') (hb : before.any isWordChar = false) (hx : x = ⟨[.constant .pi], 0⟩)
  | root (hc : c = '√') (hx : x = rootLexeme cs)
  | word (hc : isWordStart c) (hx : wordLexeme c cs = .ok x)
  | number (hc : isNumberChar c) (hx : numberLexeme c cs = .ok x)

variable {before : Option Char} {c : Char} {cs rest : List Char} {x : Lexeme}

theorem startsLexeme (h : lexeme before c cs = .ok x) : StartsLexeme before c cs x := by
  unfold lexeme at h
  split at h
  · cases h
    exact .blank ‹_› rfl
  split at h
  · cases h
    exact .symbol _ ‹_› rfl
  split at h
  · exact .power ‹_› h
  split at h
  · split at h
    · cases h
    · cases h
      exact .pi ‹_› (Bool.eq_false_iff.2 ‹_›) rfl
  split at h
  · cases h
    exact .root ‹_› rfl
  split at h
  · exact .word ‹_› h
  split at h
  · exact .number ‹_› h
  · cases h

/-- What follows `^` is blanks, a `2` and something that is no number. -/
theorem powerLexeme_eq_ok (h : powerLexeme cs = .ok x) :
    ∃ r, dropBlanks cs = '2' :: r ∧ startsWith isNumberChar r = false ∧
      x = ⟨[.square], cs.length - r.length⟩ := by
  unfold powerLexeme at h
  split at h
  · rename_i r hr
    split at h
    · cases h
    · cases h
      exact ⟨r, hr, Bool.eq_false_iff.2 ‹_›, rfl⟩
  · cases h

/-- What follows a `^` that writes a square. -/
theorem exists_blanks_of_powerLexeme (h : powerLexeme cs = .ok x) :
    ∃ blanks r, cs = blanks ++ '2' :: r ∧ (∀ b ∈ blanks, isBlank b) ∧
      startsWith isNumberChar r = false ∧ x = ⟨[.square], blanks.length + 1⟩ := by
  obtain ⟨r, hr, hnumber, rfl⟩ := powerLexeme_eq_ok h
  have hcs : cs = cs.takeWhile isBlank ++ '2' :: r := by
    rw [← hr]
    exact List.takeWhile_append_dropWhile.symm
  have hlength := congrArg List.length hcs
  simp only [List.length_append, List.length_cons] at hlength
  refine ⟨cs.takeWhile isBlank, r, hcs, fun b hb => List.mem_takeWhile_imp hb, hnumber, ?_⟩
  rw [show cs.length - r.length = (cs.takeWhile isBlank).length + 1 by omega]

/-- A word is a name. -/
theorem wordLexeme_eq_ok (h : wordLexeme c cs = .ok x) :
    ∃ t, Token.ofWord? (c :: cs.takeWhile isWordChar) = some t ∧
      x = ⟨[t], (cs.takeWhile isWordChar).length⟩ := by
  dsimp only [wordLexeme] at h
  split at h
  · cases h
    exact ⟨_, ‹_›, by simp⟩
  · cases h

/-- A number is a numeral. -/
theorem numberLexeme_eq_ok (hc : isNumberChar c) (h : numberLexeme c cs = .ok x) :
    IsNumeral (c :: cs.takeWhile isNumberChar) ∧
      x = ⟨[.number (String.ofList (c :: cs.takeWhile isNumberChar))],
        (cs.takeWhile isNumberChar).length⟩ := by
  dsimp only [numberLexeme] at h
  split at h
  · cases h
  · rename_i hpoint
    split at h
    · rename_i hdigit
      cases h
      refine ⟨⟨?_, (secondPoint?_eq_none_iff _).1 hpoint, hdigit⟩, by simp⟩
      rw [List.all_eq_true]
      intro d hd
      rcases List.mem_cons.1 hd with rfl | hd
      · exact hc
      · exact List.mem_takeWhile_imp hd
    · cases h

/-- A lexeme does not go beyond the text. -/
theorem extra_le_of_lexeme (h : lexeme before c cs = .ok x) : x.extra ≤ cs.length := by
  cases startsLexeme h with
  | blank _ hx => simp [hx]
  | symbol _ _ hx => simp [hx]
  | power _ hx =>
      obtain ⟨r, -, -, rfl⟩ := powerLexeme_eq_ok hx
      exact Nat.sub_le _ _
  | pi _ _ hx => simp [hx]
  | root _ hx =>
      rw [hx, rootLexeme]
      split <;> simp
  | word _ hx =>
      obtain ⟨t, -, rfl⟩ := wordLexeme_eq_ok hx
      exact (List.takeWhile_prefix _).length_le
  | number hc hx =>
      obtain ⟨-, rfl⟩ := numberLexeme_eq_ok hc hx
      exact (List.takeWhile_prefix _).length_le

/-! ### Numbers among the tokens -/

/-- A word spells no number. -/
theorem ofWord?_ne_number (word : List Char) (text : String) :
    Token.ofWord? word ≠ some (.number text) := by
  unfold Token.ofWord?
  split <;> simp

/-- A symbol spells no number. -/
theorem ofSymbol?_ne_number (c : Char) (text : String) :
    Token.ofSymbol? c ≠ some (.number text) := by
  unfold Token.ofSymbol?
  split <;> simp

/-- A number among the tokens of a lexeme is a numeral. -/
theorem isNumeral_of_lexeme (h : lexeme before c cs = .ok x) {text : String}
    (ht : .number text ∈ x.tokens) : IsNumeral text.toList := by
  cases startsLexeme h with
  | blank _ hx => simp [hx] at ht
  | symbol t hc hx =>
      obtain rfl : .number text = t := by simpa [hx] using ht
      exact absurd hc (ofSymbol?_ne_number c text)
  | power _ hx =>
      obtain ⟨r, -, -, rfl⟩ := powerLexeme_eq_ok hx
      simp at ht
  | pi _ _ hx => simp [hx] at ht
  | root _ hx =>
      rw [hx, rootLexeme] at ht
      split at ht <;> simp at ht
  | word _ hx =>
      obtain ⟨t, hword, rfl⟩ := wordLexeme_eq_ok hx
      obtain rfl : .number text = t := by simpa using ht
      exact absurd hword (ofWord?_ne_number _ text)
  | number hc hx =>
      obtain ⟨hnumeral, rfl⟩ := numberLexeme_eq_ok hc hx
      obtain rfl : text = String.ofList (c :: cs.takeWhile isNumberChar) := by simpa using ht
      rwa [String.toList_ofList]

/-- The numbers among the tokens of a text are numerals. -/
theorem isNumeral_of_scan {ts : List Token} (h : scan before cs = .ok ts) {text : String}
    (ht : .number text ∈ ts) : IsNumeral text.toList := by
  induction before, cs using scan.induct generalizing ts with
  | case1 before =>
      rw [scan_nil] at h
      cases h
      simp at ht
  | case2 before c cs ih =>
      rw [scan_cons] at h
      obtain ⟨x, hx, hscan⟩ := bind_eq_ok.1 h
      obtain ⟨us, hus, rfl⟩ := prependTokens_eq_ok hscan
      rcases List.mem_append.1 ht with ht | ht
      · exact isNumeral_of_lexeme hx ht
      · exact ih x hus ht

/-! ### The character before a text -/

section Before

variable {before' : Option Char}

/-- A lexeme looks at the character before it only to see whether a word may end there. -/
theorem lexeme_congr (h : before.any isWordChar = before'.any isWordChar) (c : Char)
    (cs : List Char) : lexeme before c cs = lexeme before' c cs := by
  simp only [lexeme, h]

theorem scan_congr (h : before.any isWordChar = before'.any isWordChar) (cs : List Char) :
    scan before cs = scan before' cs := by
  cases cs with
  | nil => rw [scan_nil, scan_nil]
  | cons c cs => rw [scan_cons, scan_cons, lexeme_congr h]

end Before

/-! ### Texts one after the other -/

/-- A text that no lexeme in front of it runs into: no word and no number goes on in it, and it
does not open the parenthesis that a root sign looks for. -/
structure Separates (rest : List Char) : Prop where
  word : startsWith isWordChar rest = false
  number : startsWith isNumberChar rest = false
  paren : startsWith (· == '(') (dropBlanks rest) = false

/-- A run of characters of a class ends where another text starts with a character outside. -/
theorem takeWhile_append_of_stop {p : Char → Bool} (h : startsWith p rest = false)
    (cs : List Char) : (cs ++ rest).takeWhile p = cs.takeWhile p := by
  have hrest : rest.takeWhile p = [] := by
    cases rest with
    | nil => rfl
    | cons d ds => simpa [startsWith] using h
  rw [List.takeWhile_append, hrest]
  split
  · rename_i hlen
    rw [List.append_nil, (List.takeWhile_prefix p).eq_of_length hlen]
  · rfl

/-- Dropping leading blanks stops where a text is not blank. -/
theorem dropBlanks_append {d : Char} {ds : List Char} (h : dropBlanks cs = d :: ds)
    (rest : List Char) : dropBlanks (cs ++ rest) = d :: (ds ++ rest) := by
  unfold dropBlanks at h ⊢
  rw [List.dropWhile_append, h]
  rfl

theorem wordLexeme_append (h : Separates rest) (c : Char) (cs : List Char) :
    wordLexeme c (cs ++ rest) = wordLexeme c cs := by
  simp only [wordLexeme, takeWhile_append_of_stop h.word]

theorem numberLexeme_append (h : Separates rest) (c : Char) (cs : List Char) :
    numberLexeme c (cs ++ rest) = numberLexeme c cs := by
  simp only [numberLexeme, takeWhile_append_of_stop h.number]

theorem rootLexeme_append (h : Separates rest) (cs : List Char) :
    rootLexeme (cs ++ rest) = rootLexeme cs := by
  have hparen : startsWith (· == '(') (dropBlanks (cs ++ rest)) =
      startsWith (· == '(') (dropBlanks cs) := by
    cases hcs : dropBlanks cs with
    | nil =>
        have hall : ∀ b ∈ cs, isBlank b := by simpa [dropBlanks] using hcs
        rw [dropBlanks_append_blank hall, h.paren]
        rfl
    | cons d ds =>
        rw [dropBlanks_append hcs]
        rfl
  simp only [rootLexeme, hparen]

theorem powerLexeme_append (h : Separates rest) (hx : powerLexeme cs = .ok x) :
    powerLexeme (cs ++ rest) = .ok x := by
  obtain ⟨r, hr, hnumber, rfl⟩ := powerLexeme_eq_ok hx
  have hend : startsWith isNumberChar (r ++ rest) = false := by
    cases r with
    | nil => exact h.number
    | cons d ds => exact hnumber
  have hlength : (cs ++ rest).length - (r ++ rest).length = cs.length - r.length := by
    simp only [List.length_append]
    omega
  simp only [powerLexeme, dropBlanks_append hr, hend, hlength]
  rfl

/-- A lexeme stays the same if a separating text follows. -/
theorem lexeme_append (h : Separates rest) (hx : lexeme before c cs = .ok x) :
    lexeme before c (cs ++ rest) = .ok x := by
  simp only [lexeme, wordLexeme_append h, numberLexeme_append h, rootLexeme_append h] at hx ⊢
  -- a power may be refused just because the text ends, so for it `hx` is needed
  by_cases hc : c = '^'
  · subst hc
    exact powerLexeme_append h hx
  · simpa only [if_neg hc] using hx

/-- The last character of a text, seen from behind its first lexeme. -/
theorem getLast?_drop_or {n : Nat} (h : n ≤ cs.length) :
    (cs.drop n).getLast?.or ((c :: cs)[n]?) = (c :: cs).getLast? := by
  rw [List.getLast?_drop, List.getLast?_eq_getElem? (l := c :: cs)]
  split
  · rename_i hlen
    obtain rfl : n = cs.length := Nat.le_antisymm h hlen
    rfl
  · cases cs with
    | nil => simp_all
    | cons d ds => simp [List.getLast?_eq_getElem?]

/-- A text followed by a separating one is scanned to its own tokens and then those of the other. -/
theorem scan_append (hrest : Separates rest) {ts : List Token} (h : scan before cs = .ok ts) :
    scan before (cs ++ rest) =
      prependTokens cs.length ts (scan (cs.getLast?.or before) rest) := by
  -- the first lexeme stays, and the other text follows what is behind it
  induction before, cs using scan.induct generalizing ts with
  | case1 before =>
      rw [scan_nil] at h
      cases h
      cases hscan : scan before rest <;> simp [hscan, LexicalError.shift]
  | case2 before c cs ih =>
      rw [scan_cons] at h
      obtain ⟨x, hx, hscan⟩ := bind_eq_ok.1 h
      obtain ⟨us, hus, rfl⟩ := prependTokens_eq_ok hscan
      have hextra := extra_le_of_lexeme hx
      have hlast : (c :: (cs ++ rest))[x.extra]? = (c :: cs)[x.extra]? := by
        rw [← List.cons_append, List.getElem?_append_left (by simpa using Nat.lt_succ_of_le hextra)]
      have hlength : x.extra + 1 + (cs.drop x.extra).length = (c :: cs).length := by
        simp only [List.length_drop, List.length_cons]
        omega
      have hbefore : (c :: cs).getLast?.or before = (c :: cs).getLast? := by
        simp [List.getLast?_cons]
      rw [List.cons_append, scan_cons, lexeme_append hrest hx, ok_bind, hlast,
        List.drop_append_of_le_length hextra, ih x hus, prependTokens_prependTokens, hlength,
        getLast?_drop_or hextra, hbefore]

/-! ### Single tokens -/

/-- Printable ASCII characters are not blank. -/
theorem isBlank_of_ascii (h : 33 ≤ c.toNat ∧ c.toNat ≤ 127) : isBlank c = false := by
  simp only [isBlank, CodePoints.has, CodePoints.blank, List.any_cons, List.any_nil,
    Bool.or_false, Bool.or_eq_false_iff, Bool.and_eq_false_iff, decide_eq_false_iff_not]
  omega

/-- The letters of ASCII, by their code points. -/
theorem isAlpha_iff_toNat :
    c.isAlpha ↔ 65 ≤ c.toNat ∧ c.toNat ≤ 90 ∨ 97 ≤ c.toNat ∧ c.toNat ≤ 122 := by
  change (decide (c.val ≥ 'A'.val ∧ c.val ≤ 'Z'.val) ||
    (decide (c.val ≥ 'a'.val) && decide (c.val ≤ 'z'.val))) = true ↔ _
  simp only [Bool.or_eq_true, Bool.and_eq_true, decide_eq_true_eq, ge_iff_le,
    UInt32.le_iff_toNat_le]
  exact Iff.rfl

theorem isBlank_of_isWordChar (h : isWordChar c) : isBlank c = false := by
  refine isBlank_of_ascii ?_
  simp only [isWordChar, Char.isAlphanum, Bool.or_eq_true, beq_iff_eq, isAlpha_iff_toNat,
    Char.isDigit_iff_toNat] at h
  have hzero : '0'.toNat = 48 := rfl
  have hnine : '9'.toNat = 57 := rfl
  rcases h with (h | h) | rfl
  · omega
  · omega
  · decide

/-- Symbols are not blank. -/
theorem isBlank_of_ofSymbol? {t : Token} (h : Token.ofSymbol? c = some t) :
    isBlank c = false := by
  unfold Token.ofSymbol? at h
  split at h <;> first | decide | cases h

/-- A character of a word or a number spells no token all by itself. -/
theorem ofSymbol?_of_isWordChar (h : isWordChar c ∨ c = '.') : Token.ofSymbol? c = none := by
  unfold Token.ofSymbol?
  split <;> first | rfl | (revert h; decide)

theorem isWordChar_of_isWordStart (h : isWordStart c) : isWordChar c := by
  simp only [isWordStart, isWordChar, Char.isAlphanum, Bool.or_eq_true] at h ⊢
  exact h.imp_left .inl

theorem isWordChar_of_isNumberChar (h : isNumberChar c) : isWordChar c ∨ c = '.' := by
  simp only [isNumberChar, isWordChar, Char.isAlphanum, Bool.or_eq_true, beq_iff_eq] at h ⊢
  exact h.imp_left fun h => .inl (.inr h)

/-- No word starts like a number. -/
theorem isWordStart_of_isNumberChar (h : isNumberChar c) : isWordStart c = false := by
  rw [Bool.eq_false_iff]
  intro hstart
  simp only [isNumberChar, isWordStart, Bool.or_eq_true, beq_iff_eq, isAlpha_iff_toNat,
    Char.isDigit_iff_toNat] at h hstart
  have hzero : '0'.toNat = 48 := rfl
  have hnine : '9'.toNat = 57 := rfl
  have hpoint : '.'.toNat = 46 := rfl
  have hunderscore : '_'.toNat = 95 := rfl
  rcases h with h | rfl
  · rcases hstart with hstart | rfl
    · omega
    · omega
  · rcases hstart with hstart | hstart
    · omega
    · exact absurd hstart (by decide)

/-- A blank is part of no word. -/
theorem isWordChar_of_isBlank (h : isBlank c) : isWordChar c = false := by
  rw [Bool.eq_false_iff]
  intro hword
  simp [isBlank_of_isWordChar hword] at h

/-- A blank is part of no number. -/
theorem isNumberChar_of_isBlank (h : isBlank c) : isNumberChar c = false := by
  rw [Bool.eq_false_iff]
  intro hnumber
  rcases isWordChar_of_isNumberChar hnumber with hword | rfl
  · simp [isWordChar_of_isBlank h] at hword
  · exact absurd h (by decide)

/-- A blank separates what separates without it. -/
theorem separates_blank (hc : isBlank c) (h : Separates rest) : Separates (c :: rest) := by
  refine ⟨isWordChar_of_isBlank hc, isNumberChar_of_isBlank hc, ?_⟩
  rw [dropBlanks_cons_blank hc]
  exact h.paren

/-- A lexeme that starts like a word is one. -/
theorem lexeme_of_isWordStart (h : isWordStart c) (before : Option Char) (cs : List Char) :
    lexeme before c cs = wordLexeme c cs := by
  have hword := isWordChar_of_isWordStart h
  have hpower : c ≠ '^' := by rintro rfl; revert h; decide
  have hpi : c ≠ 'π' := by rintro rfl; revert h; decide
  have hroot : c ≠ '√' := by rintro rfl; revert h; decide
  simp [lexeme, isBlank_of_isWordChar hword, ofSymbol?_of_isWordChar (.inl hword), hpower, hpi,
    hroot, h]

/-- A lexeme that starts like a number is one. -/
theorem lexeme_of_isNumberChar (h : isNumberChar c) (before : Option Char) (cs : List Char) :
    lexeme before c cs = numberLexeme c cs := by
  have hword := isWordChar_of_isNumberChar h
  have hblank : isBlank c = false := by
    rcases hword with hword | rfl
    · exact isBlank_of_isWordChar hword
    · decide
  have hstart : isWordStart c = false := isWordStart_of_isNumberChar h
  have hpower : c ≠ '^' := by rintro rfl; revert h; decide
  have hpi : c ≠ 'π' := by rintro rfl; revert h; decide
  have hroot : c ≠ '√' := by rintro rfl; revert h; decide
  simp [lexeme, hblank, ofSymbol?_of_isWordChar hword, hpower, hpi, hroot, hstart, h]

/-- A symbol in front of a text. -/
theorem scan_symbol {t : Token} (h : Token.ofSymbol? c = some t) (before : Option Char)
    (cs : List Char) : scan before (c :: cs) = prependTokens 1 [t] (scan (some c) cs) := by
  have hlexeme : lexeme before c cs = .ok ⟨[t], 0⟩ := by
    simp [lexeme, isBlank_of_ofSymbol? h, h]
  rw [scan_cons, hlexeme]
  rfl

/-- A name is the lexeme in front of a text that does not go on with a word. -/
theorem lexeme_word_append {t : Token} (hc : isWordStart c) (hcs : cs.all isWordChar)
    (ht : Token.ofWord? (c :: cs) = some t) (hrest : startsWith isWordChar rest = false)
    (before : Option Char) : lexeme before c (cs ++ rest) = .ok ⟨[t], cs.length⟩ := by
  have htake : (cs ++ rest).takeWhile isWordChar = cs := by
    rw [takeWhile_append_of_stop hrest, List.takeWhile_eq_self_iff]
    exact List.all_eq_true.1 hcs
  rw [lexeme_of_isWordStart hc]
  simp [wordLexeme, htake, ht]

/-- A lexeme that stands at the front of a text takes itself off. -/
theorem scan_of_lexeme {ts : List Token} (h : lexeme before c (cs ++ rest) = .ok ⟨ts, cs.length⟩) :
    scan before (c :: cs ++ rest) =
      prependTokens (cs.length + 1) ts (scan (c :: cs).getLast? rest) := by
  have hlast : (c :: (cs ++ rest))[cs.length]? = (c :: cs).getLast? := by
    rw [← List.cons_append, List.getElem?_append_left (by simp), List.getLast?_eq_getElem?]
    rfl
  rw [List.cons_append, scan_cons, h, ok_bind, hlast, List.drop_left]

/-- A name in front of a text that does not go on with a word. -/
theorem scan_word {t : Token} (hc : isWordStart c) (hcs : cs.all isWordChar)
    (ht : Token.ofWord? (c :: cs) = some t) (hrest : startsWith isWordChar rest = false)
    (before : Option Char) :
    scan before (c :: cs ++ rest) =
      prependTokens (cs.length + 1) [t] (scan ((c :: cs).getLast?) rest) :=
  scan_of_lexeme (lexeme_word_append hc hcs ht hrest before)

/-- A numeral is the lexeme in front of a text that does not go on with a number. -/
theorem lexeme_numeral_append (h : IsNumeral (c :: cs))
    (hrest : startsWith isNumberChar rest = false) (before : Option Char) :
    lexeme before c (cs ++ rest) = .ok ⟨[.number (String.ofList (c :: cs))], cs.length⟩ := by
  obtain ⟨hc, hcs⟩ : isNumberChar c ∧ cs.all isNumberChar := by simpa using h.all
  have htake : (cs ++ rest).takeWhile isNumberChar = cs := by
    rw [takeWhile_append_of_stop hrest, List.takeWhile_eq_self_iff]
    exact List.all_eq_true.1 hcs
  rw [lexeme_of_isNumberChar hc]
  simp [numberLexeme, htake, (secondPoint?_eq_none_iff _).2 h.count_le, h.any]

/-- A numeral all by itself. -/
theorem scan_numeral (h : IsNumeral cs) (before : Option Char) :
    scan before cs = .ok [.number (String.ofList cs)] := by
  cases cs with
  | nil => simpa using h.any
  | cons c cs =>
      have hlexeme : lexeme before c (cs ++ []) = _ := lexeme_numeral_append h rfl before
      rw [List.append_nil] at hlexeme
      rw [scan_cons, hlexeme]
      simp

end Calculator
