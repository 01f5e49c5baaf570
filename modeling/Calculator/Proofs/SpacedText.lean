/-
**Tokens with blanks between them.**

A list of tokens can be written in many ways: most tokens have several spellings, and blanks may
stand anywhere between two of them.  Where there is at least one blank between two spellings,
neither of them sees the other one, and the text reads back as the list that was written, whichever
spellings were chosen.  The one exception is the sign `√`, which looks past the blanks behind it: it
opens a parenthesis of its own, so it may stand for the function only where a parenthesis follows.

Main definitions

* `Calculator.SpacedOut` — a text spells some tokens, with blanks between them.

Main results

* `Calculator.writes_of_spacedOut` — such a text writes the tokens;
* `Calculator.spacedOut_tokensText` — the plain text of a list of tokens is such a text;
* `Calculator.ofText_of_spacedOut` — **every spelling and every spacing of a list of tokens reads
  back as the list**.
-/

import Calculator.Proofs.Spelling

set_option autoImplicit false

namespace Calculator

/-- A text spells some tokens in order, with at least one blank between two of them and any number
of blanks behind the last one.  The sign `√` stands for its function only in front of an opening
parenthesis. -/
inductive SpacedOut : List Token → List Char → Prop where
  | nil : SpacedOut [] []
  | last {t : Token} {chars blanks : List Char} (ht : t.Spelling chars) (hroot : chars ≠ ['√'])
      (hblanks : ∀ b ∈ blanks, isBlank b) : SpacedOut [t] (chars ++ blanks)
  | cons {t u : Token} {ts : List Token} {chars blanks cs : List Char} (ht : t.Spelling chars)
      (hroot : chars = ['√'] → u = .leftParen) (hblanks : ∀ b ∈ blanks, isBlank b)
      (hne : blanks ≠ []) (h : SpacedOut (u :: ts) cs) :
      SpacedOut (t :: u :: ts) (chars ++ (blanks ++ cs))

variable {b : Char} {blanks chars cs rest : List Char} {t : Token}
  {ts : List Token}

/-! ### Behind blanks -/

/-- No word and no number starts with a blank. -/
theorem startsWith_of_isBlank (hb : isBlank b) (cs : List Char) :
    startsWith isWordChar (b :: cs) = false ∧ startsWith isNumberChar (b :: cs) = false :=
  ⟨isWordChar_of_isBlank hb, isNumberChar_of_isBlank hb⟩

/-- What a text writes at the start it writes behind a blank. -/
theorem Writes.behind_blank (h : Writes none cs ts) (hb : isBlank b) : Writes (some b) cs ts := by
  cases h with
  | nil => exact .nil _
  | blank hc h => exact .blank hc h
  | token ht hapart h =>
      exact .token ht
        { number := fun hc => ⟨isNumberChar_of_isBlank hb, (hapart.number hc).2⟩
          word := hapart.word
          power := hapart.power
          pi := fun _ => isWordChar_of_isBlank hb
          root := hapart.root } h
  | opened hparen h => exact .opened hparen h

/-- Blanks in front of a text write nothing. -/
theorem Writes.blanks_append (h : Writes none cs ts) (hblanks : ∀ b ∈ blanks, isBlank b)
    (before : Option Char) (hbefore : before = none ∨ before.any isBlank ∨ blanks ≠ []) :
    Writes before (blanks ++ cs) ts := by
  induction blanks generalizing before with
  | nil =>
      rcases hbefore with rfl | hbefore | hne
      · exact h
      · obtain ⟨b, rfl, hb⟩ := (Option.any_eq_true ..).1 hbefore
        exact h.behind_blank hb
      · exact absurd rfl hne
  | cons b blanks ih =>
      obtain ⟨hb, hblanks⟩ := List.forall_mem_cons.1 hblanks
      exact .blank hb (ih hblanks (some b) (.inr (.inl hb)))

/-! ### Spaced texts -/

/-- At the start of a text, a spelling stands apart from what starts with no word and no number. -/
theorem apart_none (hword : startsWith isWordChar rest = false)
    (hnumber : startsWith isNumberChar rest = false)
    (hroot : chars = ['√'] → startsWith (· == '(') (dropBlanks rest)) : Apart none chars rest where
  number _ := ⟨rfl, hnumber⟩
  word _ := hword
  power _ := hnumber
  pi _ := rfl
  root := hroot

/-- What spells an opening parenthesis first starts with it. -/
theorem exists_cons_of_leftParen (h : SpacedOut (.leftParen :: ts) cs) : ∃ r, cs = '(' :: r := by
  have hspelling {chars : List Char} (ht : Token.leftParen.Spelling chars) : chars = ['('] := by
    cases ht with
    | sign hc => rw [List.mem_singleton.1 hc]
  cases h with
  | last ht => exact ⟨_, by rw [hspelling ht, List.singleton_append]⟩
  | cons ht => exact ⟨_, by rw [hspelling ht, List.singleton_append]⟩

/-- A spaced text writes the tokens that it spells. -/
theorem writes_of_spacedOut (h : SpacedOut ts cs) : Writes none cs ts := by
  induction h with
  | nil => exact .nil none
  | @last t chars blanks ht hroot hblanks =>
      have hends :
          startsWith isWordChar blanks = false ∧ startsWith isNumberChar blanks = false := by
        cases blanks with
        | nil => exact ⟨rfl, rfl⟩
        | cons b blanks => exact startsWith_of_isBlank (hblanks b List.mem_cons_self) blanks
      have hrest : Writes chars.getLast? blanks [] := by
        cases blanks with
        | nil => exact .nil _
        | cons b blanks =>
            have hwrites := (Writes.nil none).blanks_append hblanks chars.getLast?
              (.inr (.inr (List.cons_ne_nil b blanks)))
            rwa [List.append_nil] at hwrites
      exact .token ht (apart_none hends.1 hends.2 fun h => absurd h hroot) hrest
  | @cons t u ts chars blanks cs ht hroot hblanks hne hcs ih =>
      obtain ⟨b, bs, rfl⟩ := List.exists_cons_of_ne_nil hne
      obtain ⟨hword, hnumber⟩ := startsWith_of_isBlank (hblanks b List.mem_cons_self) (bs ++ cs)
      refine .token ht (apart_none hword hnumber fun hsign => ?_)
        (ih.blanks_append hblanks chars.getLast? (.inr (.inr hne)))
      -- the blanks do not hide the parenthesis from the root sign
      obtain rfl := hroot hsign
      obtain ⟨r, rfl⟩ := exists_cons_of_leftParen hcs
      rw [dropBlanks_append_blank hblanks, dropBlanks_cons (by decide)]
      rfl

/-! ### The plain text of a list -/

theorem isBlank_of_mem_space (hb : b ∈ [' ']) : isBlank b := by
  rw [List.mem_singleton.1 hb]
  rfl

/-- The plain text of a token spells it. -/
theorem spelling_text (ht : ∀ text, t = .number text → IsNumeral text.toList) :
    t.Spelling t.text.toList ∧ t.text.toList ≠ ['√'] := by
  cases t with
  | number text =>
      have hnumeral := ht text rfl
      refine ⟨.numeral hnumeral, fun hsign => ?_⟩
      have hall := hnumeral.all
      rw [show text.toList = ['√'] from hsign] at hall
      exact absurd hall (by decide)
  | function f =>
      refine ⟨.function ?_, ?_⟩
      · cases f <;> decide
      · cases f <;> decide
  | constant k =>
      refine ⟨.constant ?_, ?_⟩
      · cases k <;> decide
      · cases k <;> decide
  | _ => exact ⟨.sign (by decide), by decide⟩

/-- The plain text of a list of tokens is a spaced text. -/
theorem spacedOut_tokensText (hts : ∀ text, .number text ∈ ts → IsNumeral text.toList) :
    SpacedOut ts (tokensText ts).toList := by
  induction ts with
  | nil => exact .nil
  | cons t ts ih =>
      obtain ⟨ht, hroot⟩ := spelling_text (t := t) fun text h => hts text (by simp [h])
      have hrest := ih fun text h => hts text (List.mem_cons_of_mem t h)
      cases ts with
      | nil =>
          have htext : (tokensText [t]).toList = t.text.toList ++ [] := by simp [tokensText]
          rw [htext]
          exact .last ht hroot (by simp)
      | cons u ts =>
          have htext : (tokensText (t :: u :: ts)).toList =
              t.text.toList ++ ([' '] ++ (tokensText (u :: ts)).toList) := by simp [tokensText]
          rw [htext]
          exact .cons ht (fun h => absurd h hroot) (fun b => isBlank_of_mem_space) (by simp) hrest

/-- **Every spelling and every spacing of a list of tokens reads back as the list.**  The numbers
among the tokens are digits with at most one point; each token is written in any of its spellings,
with any blanks between two of them, in front of the first one and behind the last one.  One such
text is the plain one, with a single blank between two tokens. -/
theorem ofText_of_spacedOut (ts : List Token)
    (hts : ∀ text, .number text ∈ ts → IsNumeral text.toList) :
    (∀ front cs, (∀ b ∈ front, isBlank b) → SpacedOut ts cs →
      Token.ofText (String.ofList (front ++ cs)) = .ok ts) ∧
    Token.ofText (tokensText ts) = .ok ts := by
  refine ⟨?_, scan_of_writes (writes_of_spacedOut (spacedOut_tokensText hts))⟩
  intro front cs hfront hcs
  rw [Token.ofText, String.toList_ofList]
  exact scan_of_writes ((writes_of_spacedOut hcs).blanks_append hfront none (.inl rfl))

/-- The square root of a square, with the sign `√` and with blanks wherever they may stand. -/
theorem ofText_of_spacedOut_root :
    let ts : List Token := [.function .sqrt, .leftParen, .number "4.5", .square, .rightParen]
    (∀ text, .number text ∈ ts → IsNumeral text.toList) ∧
    SpacedOut ts "√ ( 4.5 ^ 2 ) ".toList ∧
    Token.ofText (String.ofList ([' '] ++ "√ ( 4.5 ^ 2 ) ".toList)) = .ok ts ∧
    Token.ofText (tokensText ts) = .ok ts := by
  intro ts
  have hts : ∀ text, .number text ∈ ts → IsNumeral text.toList := by
    intro text htext
    obtain rfl : text = "4.5" := by simpa [ts] using htext
    exact ⟨by decide, by decide, by decide⟩
  have hblank : ∀ b ∈ [' '], isBlank b := fun b => isBlank_of_mem_space
  have hsquare : Token.square.Spelling ['^', ' ', '2'] := .power hblank
  have hspaced : SpacedOut ts "√ ( 4.5 ^ 2 ) ".toList :=
    .cons (.sign (by decide)) (fun _ => rfl) hblank (by decide)
      (.cons (.sign (by decide)) (by decide) hblank (by decide)
        (.cons (.numeral (hts "4.5" (by decide))) (by decide) hblank (by decide)
          (.cons hsquare (by decide) hblank (by decide)
            (.last (.sign (by decide)) (by decide) hblank))))
  obtain ⟨hall, hplain⟩ := ofText_of_spacedOut ts hts
  exact ⟨hts, hspaced, hall _ _ hblank hspaced, hplain⟩

end Calculator
