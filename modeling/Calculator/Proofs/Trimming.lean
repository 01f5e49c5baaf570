/-
**Blanks at the two ends of a text.**

What is calculated is the entry without the blanks at its two ends, while the preview and the memory
keys evaluate the entry as it is.  Both come to the same: a blank is a lexeme without tokens, no
lexeme takes a blank at the end of the text into itself, and the one symbol that looks back, `π`,
does not mind a blank.  So the two texts have the same tokens, and where one of them is refused the
other is refused for the same character; only its place is counted from the start of the text.

Main definitions

* `Calculator.Failure.shift` — the same failure, seen from further to the left.

Main results

* `Calculator.scan_append_blanks`, `Calculator.scan_blanks_append` — scanning ignores blanks behind
  a text, and passes over blanks in front of it;
* `Calculator.trim_trim` — trimming twice is trimming once;
* `Calculator.ofText_eq_prependTokens_trim` — the tokens of a text are those of the trimmed text;
* `Calculator.exprOfText_eq_mapError_trim` — a text writes the expression that the trimmed text
  writes, or is refused for the same reason;
* `Calculator.evaluateText_trim_eq_ok` — a text has the value that the trimmed text has.
-/

import Calculator.Expr.Value
import Calculator.Proofs.Reading
import Calculator.Proofs.Scanning
import Mathlib.Data.List.DropRight

set_option autoImplicit false

namespace Calculator

variable {before : Option Char} {c : Char} {cs bs : List Char}

/-! ### Blanks behind a text -/

/-- No lexeme runs into blanks. -/
theorem separates_of_blanks (hbs : ∀ b ∈ bs, isBlank b) : Separates bs := by
  induction bs with
  | nil => exact ⟨rfl, rfl, rfl⟩
  | cons b bs ih =>
      obtain ⟨hb, hbs⟩ := List.forall_mem_cons.1 hbs
      exact separates_blank hb (ih hbs)

theorem powerLexeme_of_ne {d : Char} {ds : List Char} (h : dropBlanks cs = d :: ds)
    (hd : d ≠ '2') : powerLexeme cs = .error ⟨0, '^'⟩ := by
  unfold powerLexeme
  rw [h]
  split
  · rename_i heq
    exact absurd (List.cons.inj heq).1 hd
  · rfl

/-- After `^`, blanks at the end of the text count for nothing. -/
theorem powerLexeme_append_blanks (hbs : ∀ b ∈ bs, isBlank b) (cs : List Char) :
    powerLexeme (cs ++ bs) = powerLexeme cs := by
  cases hcs : dropBlanks cs with
  | nil =>
      have hall : ∀ b ∈ cs, isBlank b := by simpa [dropBlanks] using hcs
      have hnil : dropBlanks (cs ++ bs) = [] := by
        rw [dropBlanks_append_blank hall]
        simpa [dropBlanks] using hbs
      simp only [powerLexeme, hnil, hcs]
  | cons d ds =>
      by_cases hd : d = '2'
      · subst hd
        have hnumber : startsWith isNumberChar (ds ++ bs) = startsWith isNumberChar ds := by
          cases ds with
          | nil => exact (separates_of_blanks hbs).number
          | cons => rfl
        have hlength : (cs ++ bs).length - (ds ++ bs).length = cs.length - ds.length := by
          simp only [List.length_append]
          omega
        simp only [powerLexeme, dropBlanks_append hcs, hcs, hnumber, hlength]
      · rw [powerLexeme_of_ne hcs hd, powerLexeme_of_ne (dropBlanks_append hcs bs) hd]

/-- Blanks at the end of the text do not change a lexeme. -/
theorem lexeme_append_blanks (hbs : ∀ b ∈ bs, isBlank b) (before : Option Char) (c : Char)
    (cs : List Char) : lexeme before c (cs ++ bs) = lexeme before c cs := by
  have hseparates := separates_of_blanks hbs
  simp only [lexeme, wordLexeme_append hseparates, numberLexeme_append hseparates,
    rootLexeme_append hseparates, powerLexeme_append_blanks hbs]

/-! ### Blanks in front of a text -/

/-- A blank in front of a text is passed over. -/
theorem scan_blank (hc : isBlank c) (before : Option Char) (cs : List Char) :
    scan before (c :: cs) = prependTokens 1 [] (scan none cs) := by
  have hlexeme : lexeme before c cs = .ok ⟨[], 0⟩ := by simp [lexeme, hc]
  have hword : (some c).any isWordChar = false := isWordChar_of_isBlank hc
  have hscan : scan (some c) cs = scan none cs := scan_congr hword cs
  rw [scan_cons, hlexeme]
  exact congrArg (prependTokens 1 []) hscan

/-! ### Blanks at the two ends -/

/-- Scanning passes over blanks in front of a text. -/
theorem scan_blanks_append (hbs : ∀ b ∈ bs, isBlank b) (cs : List Char) :
    scan none (bs ++ cs) = prependTokens bs.length [] (scan none cs) := by
  induction bs with
  | nil => cases hscan : scan none cs <;> simp [hscan, LexicalError.shift]
  | cons b bs ih =>
      obtain ⟨hb, hbs⟩ := List.forall_mem_cons.1 hbs
      rw [List.cons_append, scan_blank hb, ih hbs, prependTokens_prependTokens, List.length_cons,
        Nat.add_comm]
      rfl

/-- Blanks have no tokens. -/
theorem scan_blanks (hbs : ∀ b ∈ bs, isBlank b) (before : Option Char) :
    scan before bs = .ok [] := by
  cases bs with
  | nil => exact scan_nil before
  | cons b bs =>
      obtain ⟨hb, hbs⟩ := List.forall_mem_cons.1 hbs
      have hrest := scan_blanks_append hbs []
      rw [List.append_nil, scan_nil] at hrest
      rw [scan_blank hb, hrest]
      rfl

/-- Scanning ignores blanks behind a text. -/
theorem scan_append_blanks (hbs : ∀ b ∈ bs, isBlank b) (before : Option Char) (cs : List Char) :
    scan before (cs ++ bs) = scan before cs := by
  -- the first lexeme stays, and so does what is behind it
  induction before, cs using scan.induct with
  | case1 before => rw [List.nil_append, scan_blanks hbs, scan_nil]
  | case2 before c cs ih =>
      rw [List.cons_append, scan_cons, scan_cons, lexeme_append_blanks hbs]
      cases hx : lexeme before c cs with
      | error e => rfl
      | ok x =>
          have hextra := extra_le_of_lexeme hx
          have hlast : (c :: (cs ++ bs))[x.extra]? = (c :: cs)[x.extra]? := by
            rw [← List.cons_append,
              List.getElem?_append_left (by simpa using Nat.lt_succ_of_le hextra)]
          rw [ok_bind, ok_bind, hlast, List.drop_append_of_le_length hextra, ih x]

/-- A text is its trimmed self between blanks. -/
theorem exists_trimBlanks (cs : List Char) :
    ∃ back, (∀ b ∈ back, isBlank b) ∧ cs = cs.takeWhile isBlank ++ trimBlanks cs ++ back := by
  let rest := (dropBlanks cs).reverse
  refine ⟨(rest.takeWhile isBlank).reverse, ?_, ?_⟩
  · intro b hb
    exact List.mem_takeWhile_imp (List.mem_reverse.1 hb)
  · have hrest : trimBlanks cs ++ (rest.takeWhile isBlank).reverse = dropBlanks cs := by
      change (rest.dropWhile isBlank).reverse ++ (rest.takeWhile isBlank).reverse = dropBlanks cs
      rw [← List.reverse_append, List.takeWhile_append_dropWhile, List.reverse_reverse]
    rw [List.append_assoc, hrest]
    exact List.takeWhile_append_dropWhile.symm

/-- Dropping leading blanks twice is dropping them once. -/
theorem dropBlanks_dropBlanks (cs : List Char) : dropBlanks (dropBlanks cs) = dropBlanks cs :=
  List.dropWhile_idempotent isBlank cs

/-- A trimmed text does not start with a blank. -/
theorem dropBlanks_trimBlanks (cs : List Char) : dropBlanks (trimBlanks cs) = trimBlanks cs := by
  cases htrim : trimBlanks cs with
  | nil => rfl
  | cons c rest =>
      have hprefix : trimBlanks cs <+: dropBlanks cs := by
        rw [← List.reverse_suffix, trimBlanks, List.reverse_reverse]
        exact List.dropWhile_suffix isBlank
      obtain ⟨back, hback⟩ := hprefix
      rw [htrim, List.cons_append] at hback
      cases hc : isBlank c with
      | false => exact dropBlanks_cons hc rest
      | true =>
          have hlength := length_dropBlanks_le (rest ++ back)
          rw [← dropBlanks_cons_blank hc, hback, dropBlanks_dropBlanks, ← hback] at hlength
          exact absurd hlength (by simp)

/-- Trimming twice is trimming once. -/
theorem trim_trim (s : String) : trim (trim s) = trim s := by
  have hback : (trimBlanks s.toList).reverse = dropBlanks (dropBlanks s.toList).reverse := by
    rw [trimBlanks, List.reverse_reverse]
  have hagain : trimBlanks (trimBlanks s.toList) = trimBlanks s.toList := by
    calc (dropBlanks (dropBlanks (trimBlanks s.toList)).reverse).reverse
        = (dropBlanks (dropBlanks (dropBlanks s.toList).reverse)).reverse := by
          rw [dropBlanks_trimBlanks, hback]
      _ = trimBlanks s.toList := by rw [dropBlanks_dropBlanks, trimBlanks]
  rw [trim, toList_trim, hagain, trim]

/-- The tokens of a text are those of the trimmed text, and an error is placed as many characters
further on as blanks are in front. -/
theorem ofText_eq_prependTokens_trim (s : String) :
    Token.ofText s =
      prependTokens (s.toList.takeWhile isBlank).length [] (Token.ofText (trim s)) := by
  obtain ⟨back, hback, hs⟩ := exists_trimBlanks s.toList
  have hfront : ∀ b ∈ s.toList.takeWhile isBlank, isBlank b :=
    fun b hb => List.mem_takeWhile_imp hb
  calc scan none s.toList
      = scan none (s.toList.takeWhile isBlank ++ trimBlanks s.toList ++ back) :=
        congrArg (scan none) hs
    _ = prependTokens (s.toList.takeWhile isBlank).length [] (scan none (trimBlanks s.toList)) := by
        rw [scan_append_blanks hback, scan_blanks_append hfront]
    _ = _ := by rw [Token.ofText, toList_trim]

/-- The same failure seen from `n` characters further to the left; only a lexical error has a place
in the text. -/
def Failure.shift (n : Nat) : Failure → Failure
  | .lexical e => .lexical (e.shift n)
  | .syntactic e => .syntactic e
  | .arithmetic e => .arithmetic e
  | .service e => .service e

/-- A text writes the expression that the trimmed text writes, or is refused for the same reason,
placed as many characters further on as blanks are in front. -/
theorem exprOfText_eq_mapError_trim (s : String) :
    Expr.ofText s =
      (Expr.ofText (trim s)).mapError (Failure.shift (s.toList.takeWhile isBlank).length) := by
  unfold Expr.ofText
  rw [ofText_eq_prependTokens_trim s]
  cases Token.ofText (trim s) with
  | error e => rfl
  | ok ts =>
      rw [prependTokens, List.nil_append]
      dsimp only
      cases Expr.ofTokens ts <;> rfl

/-- A text writes the expression that the trimmed text writes. -/
theorem exprOfText_trim_eq_ok {s : String} {e : Expr} :
    Expr.ofText (trim s) = .ok e ↔ Expr.ofText s = .ok e := by
  rw [exprOfText_eq_mapError_trim s]
  cases Expr.ofText (trim s) <;> simp [Except.mapError]

/-- A text has the value that the trimmed text has. -/
theorem evaluateText_trim_eq_ok {s : String} {v : Float} :
    evaluateText (trim s) = .ok v ↔ evaluateText s = .ok v := by
  simp only [evaluateText_eq_ok, exprOfText_trim_eq_ok]

end Calculator
