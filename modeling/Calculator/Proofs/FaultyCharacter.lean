/-
**The character at fault.**

A text that cannot be taken apart is refused with a character and its place, and at this place of
the text the character stands: it is the start of the lexeme that is refused, or the second point
within a number.  It is never a blank.

The session does not scan the entry itself but the entry without the blanks at its ends, while the
entry that stays next to the failure keeps them.  So the place that the failure names is counted
from the first character that is no blank.  Counted from the start of the entry it is right if no
blank is in front, and wrong for certain if it lies within the blanks in front.

Main results

* `Calculator.character_of_lexeme_error`, `Calculator.character_of_scan_error` — an error names a
  character where it stands;
* `Calculator.Session.lexical_failure_place` — where the character stands in the entry that stays;
* `Calculator.Session.lexical_failure_misplaced` — an entry with a blank in front.
-/

import Calculator.Proofs.Requests
import Calculator.Proofs.Trimming

set_option autoImplicit false

namespace Calculator

variable {before : Option Char} {c : Char} {cs : List Char} {e : LexicalError}

/-! ### Within a text -/

/-- What stands in the front of a text stands in the text. -/
theorem getElem?_of_front {front text : List Char} (h : front <+: text) {i : Nat} {d : Char}
    (hi : front[i]? = some d) : text[i]? = some d := by
  obtain ⟨back, rfl⟩ := h
  obtain ⟨hlt, -⟩ := List.getElem?_eq_some_iff.1 hi
  rw [List.getElem?_append_left hlt, hi]

/-- What stands behind the longest run of a class. -/
theorem getElem?_length_takeWhile_add (p : Char → Bool) (cs : List Char) (n : Nat) :
    cs[(cs.takeWhile p).length + n]? = (cs.dropWhile p)[n]? := by
  have hsplit : cs = cs.takeWhile p ++ cs.dropWhile p := List.takeWhile_append_dropWhile.symm
  calc cs[(cs.takeWhile p).length + n]?
      = (cs.takeWhile p ++ cs.dropWhile p)[(cs.takeWhile p).length + n]? :=
        congrArg (fun ds : List Char => ds[(cs.takeWhile p).length + n]?) hsplit
    _ = (cs.dropWhile p)[n]? := by
        rw [List.getElem?_append_right (Nat.le_add_right _ _), Nat.add_sub_cancel_left]

/-- If a text is longer than what stands before its first point, there is a point. -/
theorem getElem?_point (h : (cs.takeWhile (· != '.')).length < cs.length) :
    cs[(cs.takeWhile (· != '.')).length]? = some '.' := by
  have hbehind : cs[(cs.takeWhile (· != '.')).length]? = (cs.dropWhile (· != '.')).head? := by
    rw [List.head?_eq_getElem?]
    exact getElem?_length_takeWhile_add (· != '.') cs 0
  have hfirst := List.head?_dropWhile_not (· != '.') cs
  rw [← hbehind, List.getElem?_eq_getElem h] at hfirst
  rw [List.getElem?_eq_getElem h]
  simpa using hfirst

/-- The second point of a run is a point. -/
theorem getElem?_of_secondPoint? {run : List Char} {i : Nat} (h : secondPoint? run = some i) :
    run[i]? = some '.' := by
  unfold secondPoint? at h
  dsimp only at h
  split at h
  · cases h
  · rename_i point rest hrest
    split at h
    · rename_i hlength
      cases h
      rw [Nat.add_assoc, getElem?_length_takeWhile_add, hrest, Nat.add_comm 1,
        List.getElem?_cons_succ]
      exact getElem?_point hlength
    · cases h

/-- A lexeme that is refused names a character that is no blank, where it stands. -/
theorem character_of_lexeme_error (h : lexeme before c cs = .error e) :
    (c :: cs)[e.position]? = some e.character ∧ isBlank e.character = false := by
  unfold lexeme at h
  split at h
  · cases h
  rename_i hblank
  have hfirst (he : e = ⟨0, c⟩) : (c :: cs)[e.position]? = some e.character ∧
      isBlank e.character = false := by
    rw [he]
    exact ⟨rfl, Bool.eq_false_iff.2 hblank⟩
  split at h
  · cases h
  split at h
  · rename_i hc
    refine hfirst ?_
    rw [hc]
    unfold powerLexeme at h
    split at h
    · split at h <;> cases h
      rfl
    · cases h
      rfl
  split at h
  · rename_i hc
    split at h <;> cases h
    exact hfirst (by rw [hc])
  split at h
  · cases h
  split at h
  · dsimp only [wordLexeme] at h
    split at h <;> cases h
    exact hfirst rfl
  split at h
  · dsimp only [numberLexeme] at h
    split at h
    · rename_i i hpoint
      cases h
      have hrun : c :: cs.takeWhile isNumberChar <+: c :: cs :=
        List.cons_prefix_cons.2 ⟨rfl, List.takeWhile_prefix _⟩
      have hblank : isBlank '.' = false := by decide
      exact ⟨getElem?_of_front hrun (getElem?_of_secondPoint? hpoint), hblank⟩
    · split at h <;> cases h
      exact hfirst rfl
  · cases h
    exact hfirst rfl

/-- A text that is refused has the character that the error names where the error says. -/
theorem character_of_scan_error (h : scan before cs = .error e) :
    cs[e.position]? = some e.character ∧ isBlank e.character = false := by
  -- either the first lexeme is refused, or the error lies behind it
  induction before, cs using scan.induct generalizing e with
  | case1 before =>
      rw [scan_nil] at h
      cases h
  | case2 before c cs ih =>
      rw [scan_cons] at h
      cases hx : lexeme before c cs with
      | error e' =>
          rw [hx] at h
          cases h
          exact character_of_lexeme_error hx
      | ok x =>
          rw [hx, ok_bind] at h
          obtain ⟨e', he', rfl⟩ := prependTokens_eq_error h
          obtain ⟨hcharacter, hblank⟩ := ih x he'
          refine ⟨?_, hblank⟩
          rw [List.getElem?_drop] at hcharacter
          rw [LexicalError.position_shift, LexicalError.character_shift, Nat.add_right_comm,
            List.getElem?_cons_succ]
          exact hcharacter

/-- What is refused in the trimmed text stands further on in the text itself, by as many characters
as blanks are in front. -/
theorem character_of_trim_error {s : String} (h : Token.ofText (trim s) = .error e) :
    s.toList[(s.toList.takeWhile isBlank).length + e.position]? = some e.character ∧
      isBlank e.character = false := by
  have hwhole : Token.ofText s = .error (e.shift (s.toList.takeWhile isBlank).length) := by
    rw [ofText_eq_prependTokens_trim, h, prependTokens_error]
  exact character_of_scan_error hwhole

/-! ### Next to the failure -/

/-- A text has a lexical failure if it cannot be taken apart. -/
theorem ofText_of_evaluateText_lexical {s : String} (h : evaluateText s = .error (.lexical e)) :
    Token.ofText s = .error e := by
  unfold evaluateText Expr.ofText at h
  cases htokens : Token.ofText s with
  | error e' =>
      rw [htokens] at h
      cases h
      rfl
  | ok ts =>
      rw [htokens] at h
      dsimp only at h
      cases htree : Expr.ofTokens ts with
      | error e' =>
          rw [htree] at h
          cases h
      | ok tree =>
          rw [htree] at h
          dsimp only at h
          split at h <;> cases h

namespace Session

variable {s : Session}

/-- A lexical failure comes from the entry without the blanks at its ends, and leaves the entry. -/
theorem calculate_of_lexical (hnone : s.failure = none)
    (h : s.calculate.1.failure = some (.lexical e)) :
    Token.ofText (trim s.entry) = .error e ∧ s.calculate.1.entry = s.entry := by
  cases s.calculates with
  | refused _ hs => simp [hs, hnone] at h
  | asked _ _ _ _ hs => simp [hs, hnone] at h
  | ended _ _ hs =>
      rw [hs] at h ⊢
      cases hevaluate : evaluateText (trim s.entry) with
      | ok v =>
          rw [hevaluate] at h
          cases h
      | error f =>
          rw [hevaluate] at h
          obtain rfl : f = .lexical e := Option.some.inj h
          exact ⟨ofText_of_evaluateText_lexical hevaluate, rfl⟩

/-- **The place of a lexical failure is counted from the first character that is no blank.**  When
calculating makes a lexical failure stand, the entry stays as it is, and the character that the
failure names stands in it as many characters after the first one that is no blank as the failure
says.  So the failure points into the entry if this starts with no blank; and a place within the
blanks in front is never that of the character. -/
theorem lexical_failure_place (s : Session) (e : LexicalError) (hnone : s.failure = none)
    (hfailure : s.calculate.1.failure = some (.lexical e)) :
    let entry := s.calculate.1.entry.toList
    let front := (entry.takeWhile isBlank).length
    s.calculate.1.entry = s.entry ∧
    entry[front + e.position]? = some e.character ∧
    (front = 0 → entry[e.position]? = some e.character) ∧
    (e.position < front → entry[e.position]? ≠ some e.character) := by
  obtain ⟨htokens, hentry⟩ := calculate_of_lexical hnone hfailure
  obtain ⟨hcharacter, hblank⟩ := character_of_trim_error htokens
  rw [← hentry] at hcharacter
  intro entry front
  refine ⟨hentry, hcharacter, ?_, ?_⟩
  · intro hfront
    have hplace : front + e.position = e.position := by rw [hfront, Nat.zero_add]
    rw [← hplace]
    exact hcharacter
  · intro hlt heq
    have hfront : entry[e.position]? = some (entry.takeWhile isBlank)[e.position] :=
      getElem?_of_front (List.takeWhile_prefix _) (List.getElem?_eq_getElem hlt)
    have hmem : e.character ∈ entry.takeWhile isBlank := by
      rw [Option.some.inj (heq.symm.trans hfront)]
      exact List.getElem_mem hlt
    cases hblank.symm.trans (List.mem_takeWhile_imp hmem)

/-- A number with two points behind three blanks, so that the place lies within the blanks. -/
theorem lexical_failure_place_point :
    let s := (new {} false).setEntry "   .5.2 "
    let entry := s.calculate.1.entry.toList
    let front := (entry.takeWhile isBlank).length
    s.failure = none ∧ s.calculate.1.failure = some (.lexical ⟨2, '.'⟩) ∧
      s.calculate.1.entry = s.entry ∧ entry[front + 2]? = some '.' ∧
      (front = 0 → entry[2]? = some '.') ∧ (2 < front → entry[2]? ≠ some '.') := by
  intro s entry front
  have hfailure : s.calculate.1.failure = some (.lexical ⟨2, '.'⟩) := by decide +kernel
  exact ⟨rfl, hfailure, lexical_failure_place s ⟨2, '.'⟩ rfl hfailure⟩

/-- A sum with a character that belongs to no symbol, and a blank in front: the failure names the
place of another blank. -/
theorem lexical_failure_misplaced :
    let s := (new {} false).run [.type " 2 $ 3", .calculate]
    s.failure = some (.lexical ⟨2, '$'⟩) ∧ s.entry = " 2 $ 3" ∧
      s.entry.toList[2]? ≠ some '$' := by
  decide +kernel

end Session

end Calculator
