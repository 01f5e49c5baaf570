/-
**The text in front of a fault.**

A text that cannot be taken apart is refused at the first character that makes it so: what stands in
front of this character can be taken apart.  Cutting a text off behind a lexeme changes what some
lexemes see when they look beyond themselves, but a cut can only end a word, a number or a run of
blanks, and it leaves every lexeme in front of it in place; at most a root sign opens a parenthesis
that it did not open before.

There is one exception.  A number is refused at its second point, and if nothing but its first point
stands in front of that, no digit is left to make a number of it: `..` is refused at its second
point, `.` at its first.

Main definitions

* `Calculator.EndsInBarePoint` — a text ends with a point that stands behind no digit.

Main results

* `Calculator.lexeme_take` — a lexeme stays in place if the text is cut off behind it;
* `Calculator.lexeme_error_cases` — where a lexeme can be refused;
* `Calculator.front_of_scan_error`, `Calculator.fault_is_first` — **the text in front of a fault has
  tokens, unless the fault is a point right behind a bare point**.
-/

import Calculator.Proofs.FaultyCharacter
import Calculator.Proofs.Spelling

set_option autoImplicit false

namespace Calculator

variable {before : Option Char} {c : Char} {cs front back : List Char} {x : Lexeme}
  {e : LexicalError}

/-! ### Lexemes in front of a cut -/

/-- A cut does not make a text start with a character of a class. -/
theorem startsWith_take {p : Char → Bool} (h : startsWith p cs = false) (n : Nat) :
    startsWith p (cs.take n) = false := by
  cases n with
  | zero => rfl
  | succ n =>
      cases cs with
      | nil => rfl
      | cons c cs => exact h

/-- A lexeme stays in place if the text is cut off behind it. -/
theorem lexeme_take (h : lexeme before c cs = .ok x) (hfresh : StartsAfresh before (c :: cs))
    (n : Nat) :
    ∃ ts, lexeme before c (cs.take x.extra ++ (cs.drop x.extra).take n) = .ok ⟨ts, x.extra⟩ := by
  -- a root sign may lose sight of its parenthesis, all other lexemes stay as they are
  by_cases hc : c = '√'
  · subst hc
    have hextra (ds : List Char) : ∃ ts, rootLexeme ds = ⟨ts, 0⟩ := by
      rw [rootLexeme]
      split
      · exact ⟨_, rfl⟩
      · exact ⟨_, rfl⟩
    have hlexeme (ds : List Char) : lexeme before '√' ds = .ok (rootLexeme ds) := rfl
    obtain ⟨us, hus⟩ := hextra cs
    rw [hlexeme, hus] at h
    cases h
    obtain ⟨ts, hts⟩ := hextra (cs.take 0 ++ (cs.drop 0).take n)
    exact ⟨ts, by rw [hlexeme, hts]⟩
  · cases lexeme_cases h hfresh with
    | blank hblank hx =>
        subst hx
        exact ⟨[], by simp [lexeme, hblank]⟩
    | token t _ ht hapart =>
        have hcut : Apart before (c :: cs.take x.extra) ((cs.drop x.extra).take n) :=
          { number := fun hnumber =>
              ⟨(hapart.number hnumber).1, startsWith_take (hapart.number hnumber).2 n⟩
            word := fun hword => startsWith_take (hapart.word hword) n
            power := fun hpower => startsWith_take (hapart.power hpower) n
            pi := hapart.pi
            root := fun hroot => absurd (List.cons.inj hroot).1 hc }
        have hlexeme := lexeme_of_spelling ht hcut
        rw [List.length_take_of_le (extra_le_of_lexeme h)] at hlexeme
        exact ⟨[t], hlexeme⟩
    | opened hroot => exact absurd hroot hc

/-! ### Bare points -/

/-- A text ends with a point that stands behind no digit, given the character before the text. -/
def EndsInBarePoint (before : Option Char) (cs : List Char) : Prop :=
  ∃ ds, cs = ds ++ ['.'] ∧ (ds.getLast?.or before).any Char.isDigit = false

theorem not_endsInBarePoint_nil (before : Option Char) : ¬ EndsInBarePoint before [] := by
  rintro ⟨ds, hds, -⟩
  simp at hds

theorem EndsInBarePoint.getLast? (h : EndsInBarePoint before cs) : cs.getLast? = some '.' := by
  obtain ⟨ds, rfl, -⟩ := h
  exact List.getLast?_concat

/-- How a text ends can be seen from the back of it. -/
theorem endsInBarePoint_append (hback : back ≠ []) :
    EndsInBarePoint before (front ++ back) ↔
      EndsInBarePoint (front.getLast?.or before) back := by
  have hlast (ds : List Char) :
      (front ++ ds).getLast?.or before = ds.getLast?.or (front.getLast?.or before) := by
    rw [List.getLast?_append, Option.or_assoc]
  constructor
  · rintro ⟨ds, hds, hdigit⟩
    obtain ⟨bs, d, rfl⟩ := (List.eq_nil_or_concat' back).resolve_left hback
    rw [← List.append_assoc] at hds
    obtain ⟨rfl, hd⟩ := List.append_inj' hds rfl
    rw [hlast] at hdigit
    exact ⟨bs, by rw [hd], hdigit⟩
  · rintro ⟨bs, rfl, hdigit⟩
    refine ⟨front ++ bs, (List.append_assoc ..).symm, ?_⟩
    rw [hlast]
    exact hdigit

/-! ### Where a lexeme is refused -/

/-- The second point of a run stands behind a part of it with one point. -/
theorem exists_of_secondPoint? {run : List Char} {i : Nat} (h : secondPoint? run = some i) :
    ∃ whole fraction, '.' ∉ whole ∧ '.' ∉ fraction ∧ run.take i = whole ++ '.' :: fraction := by
  have hpoint {ds : List Char} : '.' ∉ ds.takeWhile (· != '.') := fun hmem => by
    simpa using List.mem_takeWhile_imp hmem
  unfold secondPoint? at h
  dsimp only at h
  split at h
  · cases h
  · rename_i point rest hrest
    split at h
    · cases h
      have hrun : run = run.takeWhile (· != '.') ++ '.' :: rest := by
        have hhead := List.head?_dropWhile_not (· != '.') run
        rw [hrest] at hhead
        obtain rfl : point = '.' := by simpa using hhead
        rw [← hrest]
        exact List.takeWhile_append_dropWhile.symm
      refine ⟨run.takeWhile (· != '.'), rest.takeWhile (· != '.'), hpoint, hpoint, ?_⟩
      have hfront := take_length_takeWhile (· != '.') rest
      calc run.take ((run.takeWhile (· != '.')).length + 1 + (rest.takeWhile (· != '.')).length)
          = (run.takeWhile (· != '.') ++ '.' :: rest).take
              ((run.takeWhile (· != '.')).length + ((rest.takeWhile (· != '.')).length + 1)) := by
            rw [← hrun, Nat.add_assoc, Nat.add_comm 1]
        _ = run.takeWhile (· != '.') ++ '.' :: rest.takeWhile (· != '.') := by
            rw [List.take_length_add_append, List.take_succ_cons, hfront]
    · cases h

/-- A lexeme is refused at its first character, or it is a number that is refused at its second
point. -/
theorem lexeme_error_cases (h : lexeme before c cs = .error e) :
    e.position = 0 ∨ isNumberChar c ∧ e.character = '.' ∧
      secondPoint? (c :: cs.takeWhile isNumberChar) = some e.position := by
  unfold lexeme at h
  split at h
  · cases h
  split at h
  · cases h
  split at h
  · unfold powerLexeme at h
    split at h
    · split at h <;> cases h
      exact .inl rfl
    · cases h
      exact .inl rfl
  split at h
  · split at h <;> cases h
    exact .inl rfl
  split at h
  · cases h
  split at h
  · dsimp only [wordLexeme] at h
    split at h <;> cases h
    exact .inl rfl
  split at h
  · rename_i hc
    dsimp only [numberLexeme] at h
    split at h
    · rename_i i hpoint
      cases h
      exact .inr ⟨hc, rfl, hpoint⟩
    · split at h <;> cases h
      exact .inl rfl
  · cases h
    exact .inl rfl

/-- A point at the end of a number stands behind a digit. -/
theorem not_endsInBarePoint_of_digits {whole fraction : List Char} (hne : whole ++ fraction ≠ [])
    (hds : ∀ d ∈ whole ++ fraction, d.isDigit) :
    ¬ EndsInBarePoint before (whole ++ '.' :: fraction) := by
  intro hbare
  rcases List.eq_nil_or_concat' fraction with rfl | ⟨bs, d, rfl⟩
  · rw [List.append_nil] at hne hds
    obtain ⟨ds, hds', hdigit⟩ := hbare
    obtain ⟨rfl, -⟩ := List.append_inj' hds' rfl
    have hlast := List.getLast?_eq_some_getLast hne
    rw [hlast] at hdigit
    cases hdigit.symm.trans (hds _ (List.getLast_mem hne))
  · have hlast := hbare.getLast?
    rw [← List.cons_append, ← List.append_assoc, List.getLast?_concat] at hlast
    have hpoint := hds d (by simp)
    rw [Option.some.inj hlast] at hpoint
    exact absurd hpoint (by decide)

/-- The part of a number in front of its second point is a numeral, unless it is a bare point. -/
theorem front_of_secondPoint? {run : List Char} {i : Nat} (hrun : run.all isNumberChar)
    (hbefore : before.any isNumberChar = false) (h : secondPoint? run = some i) :
    (∃ ts, scan before (run.take i) = .ok ts) ↔ ¬ EndsInBarePoint before (run.take i) := by
  obtain ⟨whole, fraction, hwhole, hfraction, htake⟩ := exists_of_secondPoint? h
  have hdigits : ∀ d ∈ whole ++ fraction, d.isDigit := by
    intro d hd
    have hpoint : d ≠ '.' := by
      rintro rfl
      exact (List.mem_append.1 hd).elim hwhole hfraction
    have hmem : d ∈ run.take i := by
      rw [htake]
      exact List.mem_append.2 ((List.mem_append.1 hd).imp_right (List.mem_cons_of_mem _))
    have hnumber := List.all_eq_true.1 hrun d (List.mem_of_mem_take hmem)
    simpa [isNumberChar, hpoint] using hnumber
  rw [htake]
  by_cases hne : whole ++ fraction = []
  · obtain ⟨rfl, rfl⟩ := List.append_eq_nil_iff.1 hne
    have hbare : EndsInBarePoint before ['.'] := by
      refine ⟨[], rfl, ?_⟩
      rw [List.getLast?_nil, Option.none_or, Bool.eq_false_iff]
      intro hdigit
      obtain ⟨b, hb, hdigit⟩ := (Option.any_eq_true ..).1 hdigit
      simp [hb, isNumberChar, hdigit] at hbefore
    refine iff_of_false ?_ (not_not.2 hbare)
    rintro ⟨ts, hts⟩
    have hlexeme : lexeme before '.' [] = .error ⟨0, '.'⟩ := rfl
    rw [List.nil_append, scan_cons, hlexeme] at hts
    cases hts
  · exact iff_of_true ⟨_, scan_numeral (isNumeral_of_fraction hne hdigits) before⟩
      (not_endsInBarePoint_of_digits hne hdigits)

/-! ### The text in front of a fault -/

/-- Behind the first lexeme, the text in front of a fault ends as it does with this lexeme. -/
theorem endsInBarePoint_cut (hfresh : StartsAfresh (c :: front).getLast? cs)
    (h : scan (c :: front).getLast? cs = .error e) (hcharacter : e.character = '.') :
    EndsInBarePoint before (c :: front ++ cs.take e.position) ↔
      EndsInBarePoint (c :: front).getLast? (cs.take e.position) := by
  by_cases hback : cs.take e.position = []
  · -- the fault is a point right behind the lexeme, so the lexeme does not end with one
    rw [hback, List.append_nil]
    refine iff_of_false (fun hbare => ?_) (not_endsInBarePoint_nil _)
    obtain ⟨hpoint, -⟩ := character_of_scan_error h
    have hstart : startsWith isNumberChar cs := by
      rcases List.take_eq_nil_iff.1 hback with hzero | rfl
      · rw [hzero, ← List.head?_eq_getElem?] at hpoint
        rw [startsWith, hpoint, hcharacter]
        rfl
      · cases hpoint
    have hnumber : (c :: front).getLast?.any isNumberChar := by
      rw [hbare.getLast?]
      rfl
    cases hstart.symm.trans (hfresh hnumber)
  · rw [endsInBarePoint_append hback]
    simp [List.getLast?_cons]

theorem exists_prependTokens_eq_ok {n : Nat} {ts : List Token}
    {r : Except LexicalError (List Token)} :
    (∃ us, prependTokens n ts r = .ok us) ↔ ∃ us, r = .ok us := by
  cases r <;> simp

/-- The text in front of a fault has tokens, unless the fault is a point right behind a bare
point. -/
theorem front_of_scan_error (hfresh : StartsAfresh before cs) (h : scan before cs = .error e) :
    (∃ ts, scan before (cs.take e.position) = .ok ts) ↔
      ¬ (e.character = '.' ∧ EndsInBarePoint before (cs.take e.position)) := by
  -- either the first lexeme is refused, or the fault lies behind it
  induction before, cs using scan.induct generalizing e with
  | case1 before =>
      rw [scan_nil] at h
      cases h
  | case2 before c cs ih =>
      rw [scan_cons] at h
      cases hx : lexeme before c cs with
      | error e' =>
          rw [hx] at h
          cases h
          rcases lexeme_error_cases hx with hzero | ⟨hc, hcharacter, hpoint⟩
          · rw [hzero, List.take_zero]
            exact iff_of_true ⟨[], scan_nil before⟩ fun h => not_endsInBarePoint_nil before h.2
          · have hrun : (c :: cs.takeWhile isNumberChar).all isNumberChar := by
              rw [List.all_cons, hc, List.all_takeWhile]
              rfl
            have hlt := (List.getElem?_eq_some_iff.1 (getElem?_of_secondPoint? hpoint)).1
            have htake : (c :: cs).take e.position =
                (c :: cs.takeWhile isNumberChar).take e.position := by
              have hsplit : c :: cs = c :: cs.takeWhile isNumberChar ++ cs.dropWhile isNumberChar :=
                congrArg (c :: ·) List.takeWhile_append_dropWhile.symm
              rw [hsplit, List.take_append_of_le_length hlt.le]
            have hbefore : before.any isNumberChar = false := by
              rw [Bool.eq_false_iff]
              intro hbefore
              cases hc.symm.trans (hfresh hbefore)
            rw [htake, front_of_secondPoint? hrun hbefore hpoint, and_iff_right hcharacter]
      | ok x =>
          rw [hx, ok_bind] at h
          obtain ⟨e', he', rfl⟩ := prependTokens_eq_error h
          have hrest := startsAfresh_of_lexeme hx hfresh
          obtain ⟨ts, hts⟩ := lexeme_take hx hfresh e'.position
          have hextra := List.length_take_of_le (extra_le_of_lexeme hx)
          have hfront : (c :: cs).take (e'.shift (x.extra + 1)).position =
              c :: cs.take x.extra ++ (cs.drop x.extra).take e'.position := by
            rw [LexicalError.position_shift, Nat.add_right_comm, List.take_succ_cons, List.take_add]
            rfl
          have hscan := scan_of_lexeme (hts.trans (by rw [hextra]))
          rw [hfront, hscan, exists_prependTokens_eq_ok]
          have hfirst := ih x hrest he'
          rw [← getLast?_piece hx] at hfirst hrest he'
          refine hfirst.trans (not_congr (and_congr_right fun hcharacter => ?_))
          exact (endsInBarePoint_cut hrest he' hcharacter).symm

/-- **The text in front of a fault has tokens.**  A text that is refused has the character that the
error names where the error says, and what stands in front of it can be taken apart, unless the
character is a point right behind a point that stands behind no digit. -/
theorem fault_is_first (s : String) (e : LexicalError) (h : Token.ofText s = .error e) :
    let front := s.toList.take e.position
    e.position < s.toList.length ∧ s.toList[e.position]? = some e.character ∧
      ((∃ ts, Token.ofText (String.ofList front) = .ok ts) ↔
        ¬ (e.character = '.' ∧ EndsInBarePoint none front)) := by
  intro front
  obtain ⟨hcharacter, -⟩ := character_of_scan_error h
  refine ⟨(List.getElem?_eq_some_iff.1 hcharacter).1, hcharacter, ?_⟩
  rw [Token.ofText, String.toList_ofList]
  exact front_of_scan_error (startsAfresh_none s.toList) h

/-- A second point behind a digit, where the first one ends the text in front of it. -/
theorem fault_is_first_two_points :
    Token.ofText "√5.." = .error ⟨3, '.'⟩ ∧
    3 < "√5..".toList.length ∧ "√5..".toList[3]? = some '.' ∧
      ((∃ ts, Token.ofText (String.ofList ("√5..".toList.take 3)) = .ok ts) ↔
        ¬ ('.' = '.' ∧ EndsInBarePoint none ("√5..".toList.take 3))) := by
  have hfault : Token.ofText "√5.." = .error ⟨3, '.'⟩ := by decide +kernel
  exact ⟨hfault, fault_is_first "√5.." ⟨3, '.'⟩ hfault⟩

end Calculator
