/-
**Skipping values in JSON.**

A value is skipped exactly where one is written.  The three skippers call each other with one step
less, so both directions are an induction on the steps; that no more steps are needed than twice the
length of the text is part of the second one.

Main definitions

* `Calculator.Json.Follows` — what may stand behind a value;
* `Calculator.Json.SkipsWritten`, `Calculator.Json.WrittenSkips` — the two directions, for a number
  of steps.

Main results

* `Calculator.Json.skipsWritten` — what is skipped is written;
* `Calculator.Json.writtenSkips` — what is written is skipped;
* `Calculator.Json.skipValue_eq_ok` — **values are skipped exactly where they are written**.
-/

import Calculator.Json.Skip
import Calculator.Proofs.JsonNumbers
import Calculator.Proofs.JsonStrings

set_option autoImplicit false

namespace Calculator.Json

variable {cs ds r : List Char} {c : Char} {v : Value} {vs : List Value}
  {ms : List (List Char × Value)} {steps : Nat}

/-! ### Space -/

theorem Space.refl (cs : List Char) : Space cs cs := ⟨[], by simp, rfl⟩

theorem Space.trans (h : Space cs ds) (h' : Space ds r) : Space cs r := by
  obtain ⟨s, hs, rfl⟩ := h
  obtain ⟨t, ht, rfl⟩ := h'
  refine ⟨s ++ t, ?_, (List.append_assoc s t r).symm⟩
  intro c hc
  rcases List.mem_append.1 hc with hc | hc
  · exact hs c hc
  · exact ht c hc

theorem Space.length_le (h : Space cs r) : r.length ≤ cs.length := by
  obtain ⟨s, -, rfl⟩ := h
  simp

/-- What stands behind space is what is left when space is skipped. -/
theorem skipSpace_of_space (h : Space cs (c :: r)) (hc : isSpace c = false) :
    skipSpace cs = c :: r := by
  obtain ⟨s, hs, rfl⟩ := h
  rw [skipSpace, List.dropWhile_append_of_pos hs]
  simp [hc]

theorem skipSpace_eq_nil : skipSpace cs = [] ↔ Space cs [] := by
  constructor
  · intro h
    exact h ▸ space_skipSpace cs
  · rintro ⟨s, hs, rfl⟩
    simpa [skipSpace] using hs

/-- Space in front of a text that is skipped. -/
theorem space_of_skipSpace (h : skipSpace cs = r) : Space cs r := h ▸ space_skipSpace cs

/-! ### Names -/

theorem readName_eq_ok {name : List Char} {u : Unit} :
    readName name cs = .ok (u, r) ↔ cs = name ++ r := by
  induction name generalizing cs with
  | nil => simp [readName]
  | cons d name ih =>
      cases cs with
      | nil => simp [readName, stop]
      | cons c cs =>
          simp only [readName]
          split
          · rename_i hc
            simp [ih, hc]
          · rename_i hc
            simp [hc, stopAtNext]

/-! ### What stands around a value -/

/-- What may stand behind a value: nothing, space, a comma or a closing bracket. -/
def Follows (r : List Char) : Prop := ∀ c ∈ r.head?, isSpace c ∨ c ∈ [',', ']', '}']

theorem follows_of_space (h : Space r (c :: ds)) (hc : c ∈ [',', ']', '}']) : Follows r := by
  obtain ⟨s, hs, rfl⟩ := h
  cases s with
  | nil =>
      intro d hd
      simp only [List.nil_append, List.head?_cons, Option.mem_some] at hd
      exact .inr (hd ▸ hc)
  | cons d s =>
      intro d' hd
      simp only [List.cons_append, List.head?_cons, Option.mem_some] at hd
      exact .inl (hd ▸ hs d List.mem_cons_self)

theorem Follows.not_number (h : Follows r) (hc : r.head? = some c) :
    c.isDigit = false ∧ c ≠ 'e' ∧ c ≠ 'E' ∧ c ≠ '.' := by
  have hmem := h c hc
  simp only [isSpace, Bool.or_eq_true, beq_iff_eq, List.mem_cons, List.not_mem_nil, or_false]
    at hmem
  rcases hmem with (((rfl | rfl) | rfl) | rfl) | rfl | rfl | rfl <;> decide

/-- A number does not go on in what may stand behind a value. -/
theorem Follows.ends (h : Follows r) (n : Numeral) : n.Ends r := by
  have hdigit : NoDigit r := by
    cases r with
    | nil => exact noDigit_nil
    | cons c r => exact noDigit_cons.2 (h.not_number rfl).1
  refine ⟨hdigit, ?_, fun _ _ hhead => (h.not_number hhead).2.2.2 rfl⟩
  cases n.exponent with
  | none =>
      exact ⟨fun hhead => (h.not_number hhead).2.1 rfl, fun hhead => (h.not_number hhead).2.2.1 rfl⟩
  | some p => exact hdigit

theorem isSpace_of_isDigit (hc : c.isDigit) : isSpace c = false := by
  cases hspace : isSpace c with
  | false => rfl
  | true =>
      simp only [isSpace, Bool.or_eq_true, beq_iff_eq] at hspace
      rcases hspace with ((rfl | rfl) | rfl) | rfl <;> cases hc

/-- A number that is written starts with a minus sign or a digit. -/
theorem Numeral.exists_text_eq (n : Numeral) :
    ∃ c t, n.magnitudeText = c :: t ∧ c.isDigit := by
  obtain ⟨c, ds, hwhole⟩ := List.exists_cons_of_ne_nil n.whole_ne_nil
  have hc : c.isDigit := n.isDigit_whole c (by rw [hwhole]; exact List.mem_cons_self)
  exact ⟨c, _, by rw [Numeral.magnitudeText, hwhole]; rfl, hc⟩

/-- A value that is written starts with a character that neither is space nor closes a list. -/
theorem Written.exists_cons (h : Written v cs r) :
    ∃ c t, cs = c :: t ∧ isSpace c = false ∧ c ≠ ']' := by
  cases h with
  | name name => cases name <;> exact ⟨_, _, rfl, rfl, by decide⟩
  | number n =>
      cases hsign : n.negative with
      | true => exact ⟨'-', n.magnitudeText ++ r, by simp [Numeral.text, hsign], rfl, by decide⟩
      | false =>
          obtain ⟨c, t, htext, hc⟩ := n.exists_text_eq
          refine ⟨c, t ++ r, by simp [Numeral.text, hsign, htext], ?_, ?_⟩
          · exact isSpace_of_isDigit hc
          · rintro rfl
            exact absurd hc (by decide)
  | string | emptyList | list | emptyObject | object => exact ⟨_, _, rfl, rfl, by decide⟩

theorem Written.exists_bracket (h : Written (.list vs) cs r) : ∃ t, cs = '[' :: t := by
  cases h <;> exact ⟨_, rfl⟩

theorem Written.exists_brace (h : Written (.object ms) cs r) : ∃ t, cs = '{' :: t := by
  cases h <;> exact ⟨_, rfl⟩

/-- The items of a list start with one that does not close it. -/
theorem WrittenItems.exists_cons (h : WrittenItems vs cs r) :
    ∃ c t, skipSpace cs = c :: t ∧ c ≠ ']' ∧ WrittenItems vs (c :: t) r := by
  cases h with
  | last hs hv hend =>
      obtain ⟨c, t, rfl, hspace, hc⟩ := hv.exists_cons
      exact ⟨c, t, skipSpace_of_space hs hspace, hc, .last (.refl _) hv hend⟩
  | cons hs hv hnext h =>
      obtain ⟨c, t, rfl, hspace, hc⟩ := hv.exists_cons
      exact ⟨c, t, skipSpace_of_space hs hspace, hc, .cons (.refl _) hv hnext h⟩

theorem WrittenItems.of_space (h : WrittenItems vs ds r) (hs : Space cs ds) :
    WrittenItems vs cs r := by
  cases h with
  | last hs' hv hend => exact .last (hs.trans hs') hv hend
  | cons hs' hv hnext h => exact .cons (hs.trans hs') hv hnext h

theorem WrittenMember.of_space {m : List Char × Value} (h : WrittenMember m ds r)
    (hs : Space cs ds) : WrittenMember m cs r := by
  cases h with
  | mk hs' hkey hcolon hs'' hv => exact .mk (hs.trans hs') hkey hcolon hs'' hv

theorem WrittenMembers.of_space (h : WrittenMembers ms ds r) (hs : Space cs ds) :
    WrittenMembers ms cs r := by
  cases h with
  | last hm hend => exact .last (hm.of_space hs) hend
  | cons hm hnext h => exact .cons (hm.of_space hs) hnext h

/-- A member of an object starts with the quote of its key. -/
theorem WrittenMember.exists_quote {m : List Char × Value} (h : WrittenMember m cs r) :
    ∃ t, skipSpace cs = '"' :: t ∧ WrittenMember m ('"' :: t) r := by
  cases h with
  | mk hs hkey hcolon hs' hv =>
      exact ⟨_, skipSpace_of_space hs rfl, .mk (.refl _) hkey hcolon hs' hv⟩

theorem WrittenMembers.exists_quote (h : WrittenMembers ms cs r) :
    ∃ t, skipSpace cs = '"' :: t ∧ WrittenMembers ms ('"' :: t) r := by
  cases h with
  | last hm hend =>
      obtain ⟨t, ht, hm⟩ := hm.exists_quote
      exact ⟨t, ht, .last hm hend⟩
  | cons hm hnext h =>
      obtain ⟨t, ht, hm⟩ := hm.exists_quote
      exact ⟨t, ht, .cons hm hnext h⟩

/-! ### The length of what is written -/

mutual

/-- A value takes at least one character. -/
theorem Written.length_lt {v : Value} {cs r : List Char} : Written v cs r → r.length < cs.length
  | .name name _ => by
      have hname : 0 < name.text.length := by cases name <;> decide
      rw [List.length_append]
      omega
  | .number n _ => by
      obtain ⟨c, t, htext, -⟩ := n.exists_text_eq
      simp only [Numeral.text, htext]
      split <;> simp only [List.cons_append, List.length_cons, List.length_append] <;> omega
  | .string _ _ => by simp; omega
  | .emptyList hs => by
      have hlength := hs.length_le
      simp only [List.length_cons] at hlength ⊢
      omega
  | .list h => by
      have hlength := h.length_lt
      simp only [List.length_cons]
      omega
  | .emptyObject hs => by
      have hlength := hs.length_le
      simp only [List.length_cons] at hlength ⊢
      omega
  | .object h => by
      have hlength := h.length_lt
      simp only [List.length_cons]
      omega

theorem WrittenItems.length_lt {vs : List Value} {cs r : List Char} :
    WrittenItems vs cs r → r.length < cs.length
  | .last hs hv hend => by
      have hcs := hs.length_le
      have hvalue := hv.length_lt
      have hrest := hend.length_le
      simp only [List.length_cons] at hrest
      omega
  | .cons hs hv hnext h => by
      have hcs := hs.length_le
      have hvalue := hv.length_lt
      have hrest := hnext.length_le
      have hitems := h.length_lt
      simp only [List.length_cons] at hrest
      omega

theorem WrittenMember.length_lt {m : List Char × Value} {cs r : List Char} :
    WrittenMember m cs r → r.length < cs.length
  | .mk hs _ hcolon hs' hv => by
      have hcs := hs.length_le
      have hkey := hcolon.length_le
      have hspace := hs'.length_le
      have hvalue := hv.length_lt
      simp only [List.length_cons, List.length_append] at hcs hkey
      omega

theorem WrittenMembers.length_lt {ms : List (List Char × Value)} {cs r : List Char} :
    WrittenMembers ms cs r → r.length < cs.length
  | .last hm hend => by
      have hmember := hm.length_lt
      have hrest := hend.length_le
      simp only [List.length_cons] at hrest
      omega
  | .cons hm hnext h => by
      have hmember := hm.length_lt
      have hrest := hnext.length_le
      have hmembers := h.length_lt
      simp only [List.length_cons] at hrest
      omega

end

/-! ### What is skipped is written -/

/-- What is skipped in a number of steps is written. -/
structure SkipsWritten (steps : Nat) : Prop where
  value {cs r : List Char} : skipValueIn steps cs = .ok r → ∃ v ds, Space cs ds ∧ Written v ds r
  items {cs r : List Char} : skipItemsIn steps cs = .ok r → ∃ vs, WrittenItems vs cs r
  members {cs r : List Char} : skipMembersIn steps cs = .ok r → ∃ ms, WrittenMembers ms cs r

/-- A number that is skipped after its minus sign, or without one, is written. -/
theorem exists_numeral_of_skipNumber (h : skipNumber cs = .ok r) :
    (∃ n : Numeral, '-' :: cs = n.text ++ r) ∧ ∃ n : Numeral, cs = n.text ++ r := by
  obtain ⟨n, hn, hcs, -⟩ := (skipNumber_eq_ok true).1 h
  obtain ⟨m, hm, hcs', -⟩ := (skipNumber_eq_ok false).1 h
  exact ⟨⟨n, by simp [Numeral.text, hn, hcs]⟩, m, by simp [Numeral.text, hm, hcs']⟩

/-- A name whose other characters are read is written. -/
theorem written_of_readName {name : Name} {tail t : List Char} (hname : name.text = c :: tail)
    (h : (do return (← readName tail t).2 : Except Stop (List Char)) = .ok r) :
    Written (.name name) (c :: t) r := by
  obtain ⟨⟨u, rest⟩, hread, hend⟩ := bind_eq_ok.1 h
  cases hend
  obtain rfl := readName_eq_ok.1 hread
  have hwritten := Written.name name rest
  rwa [hname] at hwritten

theorem SkipsWritten.value_succ (ih : SkipsWritten steps) (h : skipValueIn (steps + 1) cs = .ok r) :
    ∃ v ds, Space cs ds ∧ Written v ds r := by
  simp only [skipValueIn] at h
  split at h
  · cases h
  · rename_i t hskip
    exact ⟨.name .null, _, space_of_skipSpace hskip, written_of_readName rfl h⟩
  · rename_i t hskip
    exact ⟨.name .true, _, space_of_skipSpace hskip, written_of_readName rfl h⟩
  · rename_i t hskip
    exact ⟨.name .false, _, space_of_skipSpace hskip, written_of_readName rfl h⟩
  · rename_i t hskip
    obtain ⟨⟨n, hn⟩, -⟩ := exists_numeral_of_skipNumber h
    exact ⟨.number n, _, space_of_skipSpace hskip, hn ▸ .number n r⟩
  · rename_i t hskip
    obtain ⟨content, hcontent, rfl⟩ := skipString_eq_ok.1 h
    exact ⟨.string content, _, space_of_skipSpace hskip, .string hcontent r⟩
  · rename_i t hskip
    split at h
    · rename_i rest hclose
      cases h
      exact ⟨.list [], _, space_of_skipSpace hskip, .emptyList (space_of_skipSpace hclose)⟩
    · cases h
    · obtain ⟨vs, hvs⟩ := ih.items h
      exact ⟨.list vs, _, space_of_skipSpace hskip, .list (hvs.of_space (space_skipSpace t))⟩
  · rename_i t hskip
    split at h
    · rename_i rest hclose
      cases h
      exact ⟨.object [], _, space_of_skipSpace hskip, .emptyObject (space_of_skipSpace hclose)⟩
    · cases h
    · obtain ⟨ms, hms⟩ := ih.members h
      exact ⟨.object ms, _, space_of_skipSpace hskip, .object (hms.of_space (space_skipSpace t))⟩
  · rename_i c t _ _ _ _ _ _ _ hskip
    split at h
    · obtain ⟨-, n, hn⟩ := exists_numeral_of_skipNumber h
      exact ⟨.number n, _, space_of_skipSpace hskip, hn ▸ .number n r⟩
    · cases h

theorem SkipsWritten.items_succ (ih : SkipsWritten steps) (h : skipItemsIn (steps + 1) cs = .ok r) :
    ∃ vs, WrittenItems vs cs r := by
  simp only [skipItemsIn] at h
  obtain ⟨es, hvalue, hrest⟩ := bind_eq_ok.1 h
  obtain ⟨v, ds, hs, hv⟩ := ih.value hvalue
  split at hrest
  · rename_i t hskip
    obtain ⟨vs, hvs⟩ := ih.items hrest
    exact ⟨v :: vs, .cons hs hv (space_of_skipSpace hskip) hvs⟩
  · rename_i t hskip
    cases hrest
    exact ⟨[v], .last hs hv (space_of_skipSpace hskip)⟩
  · cases hrest
  · cases hrest

/-- A colon is read where it stands behind space. -/
theorem readColon_eq_ok : readColon cs = .ok r ↔ Space cs (':' :: r) := by
  constructor
  · intro h
    unfold readColon at h
    split at h
    · rename_i t hskip
      cases h
      exact space_of_skipSpace hskip
    · cases h
    · cases h
  · intro h
    simp only [readColon, skipSpace_of_space h rfl]

theorem SkipsWritten.members_succ (ih : SkipsWritten steps)
    (h : skipMembersIn (steps + 1) cs = .ok r) : ∃ ms, WrittenMembers ms cs r := by
  simp only [skipMembersIn] at h
  split at h
  · rename_i t hskip
    obtain ⟨afterKey, hkey, hcolon⟩ := bind_eq_ok.1 h
    obtain ⟨afterColon, hcolon, hvalue⟩ := bind_eq_ok.1 hcolon
    obtain ⟨es, hvalue, hrest⟩ := bind_eq_ok.1 hvalue
    obtain ⟨key, hcontent, rfl⟩ := skipString_eq_ok.1 hkey
    obtain ⟨v, ds, hs, hv⟩ := ih.value hvalue
    have hmember : WrittenMember (key, v) cs es :=
      .mk (space_of_skipSpace hskip) hcontent (readColon_eq_ok.1 hcolon) hs hv
    split at hrest
    · rename_i t' hnext
      obtain ⟨ms, hms⟩ := ih.members hrest
      exact ⟨(key, v) :: ms, .cons hmember (space_of_skipSpace hnext) hms⟩
    · rename_i t' hend
      cases hrest
      exact ⟨[(key, v)], .last hmember (space_of_skipSpace hend)⟩
    · cases hrest
    · cases hrest
  · cases h
  · cases h

/-- What is skipped is written. -/
theorem skipsWritten (steps : Nat) : SkipsWritten steps := by
  induction steps with
  | zero => exact ⟨fun h => (nomatch h), fun h => (nomatch h), fun h => (nomatch h)⟩
  | succ steps ih => exact ⟨ih.value_succ, ih.items_succ, ih.members_succ⟩

/-! ### What is written is skipped -/

/-- What is written is skipped in a number of steps, if there are enough of them. -/
structure WrittenSkips (steps : Nat) : Prop where
  value {v : Value} {cs ds r : List Char} : Written v ds r → Space cs ds → Follows r →
    2 * cs.length ≤ steps + 1 → skipValueIn steps cs = .ok r
  items {vs : List Value} {cs r : List Char} : WrittenItems vs cs r → 2 * cs.length ≤ steps →
    skipItemsIn steps cs = .ok r
  members {ms : List (List Char × Value)} {cs r : List Char} : WrittenMembers ms cs r →
    2 * cs.length ≤ steps → skipMembersIn steps cs = .ok r

/-- A value that starts with a digit is skipped as a number. -/
theorem skipValueIn_digit {t : List Char} (hskip : skipSpace cs = c :: t) (hc : c.isDigit)
    (steps : Nat) : skipValueIn (steps + 1) cs = skipNumber (c :: t) := by
  simp only [skipValueIn]
  split <;> rename_i heq <;> rw [hskip] at heq <;> cases heq
  -- the last kind of value is a number; no other one starts with a digit
  case h_9 => rw [if_pos hc]
  all_goals cases hc

theorem skipNumber_of_ends {n : Numeral} (hends : n.Ends r) :
    skipNumber (n.magnitudeText ++ r) = .ok r :=
  (skipNumber_eq_ok n.negative).2 ⟨n, rfl, rfl, hends⟩

theorem WrittenSkips.value_succ (ih : WrittenSkips steps) (h : Written v ds r) (hs : Space cs ds)
    (hr : Follows r) (hsteps : 2 * cs.length ≤ steps + 1 + 1) :
    skipValueIn (steps + 1) cs = .ok r := by
  have hlength := hs.length_le
  cases h with
  | name name =>
      cases name <;> simp only [skipValueIn, skipSpace_of_space hs rfl] <;>
        exact bind_eq_ok.2 ⟨((), r), readName_eq_ok.2 rfl, rfl⟩
  | number n =>
      have hskip := skipNumber_of_ends (hr.ends n)
      cases hsign : n.negative with
      | true =>
          rw [Numeral.text, if_pos hsign] at hs
          simp only [skipValueIn, skipSpace_of_space hs rfl]
          exact hskip
      | false =>
          obtain ⟨c, t, htext, hc⟩ := n.exists_text_eq
          rw [htext] at hskip
          rw [Numeral.text, if_neg (Bool.eq_false_iff.1 hsign), htext] at hs
          rw [skipValueIn_digit (skipSpace_of_space hs (isSpace_of_isDigit hc)) hc]
          exact hskip
  | string hcontent =>
      simp only [skipValueIn, skipSpace_of_space hs rfl]
      exact skipString_eq_ok.2 ⟨_, hcontent, rfl⟩
  | emptyList hclose =>
      simp only [skipValueIn, skipSpace_of_space hs rfl, skipSpace_of_space hclose rfl]
  | @list vs t _ hitems =>
      obtain ⟨c, t', hskip, hc, hitems'⟩ := hitems.exists_cons
      have hshort := length_skipSpace_le t
      have hitemSteps : 2 * (c :: t').length ≤ steps := by
        rw [hskip] at hshort
        simp only [List.length_cons] at hlength hshort ⊢
        omega
      simp only [skipValueIn, skipSpace_of_space hs rfl, hskip]
      split
      · rename_i heq
        exact absurd (List.cons.inj heq).1 hc
      · rename_i heq
        cases heq
      · exact ih.items hitems' hitemSteps
  | emptyObject hclose =>
      simp only [skipValueIn, skipSpace_of_space hs rfl, skipSpace_of_space hclose rfl]
  | @object ms t _ hmembers =>
      obtain ⟨t', hskip, hmembers'⟩ := hmembers.exists_quote
      have hshort := length_skipSpace_le t
      have hmemberSteps : 2 * ('"' :: t').length ≤ steps := by
        rw [hskip] at hshort
        simp only [List.length_cons] at hlength hshort ⊢
        omega
      simp only [skipValueIn, skipSpace_of_space hs rfl, hskip]
      exact ih.members hmembers' hmemberSteps

theorem WrittenSkips.items_succ (ih : WrittenSkips steps) (h : WrittenItems vs cs r)
    (hsteps : 2 * cs.length ≤ steps + 1) : skipItemsIn (steps + 1) cs = .ok r := by
  simp only [skipItemsIn]
  cases h with
  | last hs hv hend =>
      refine bind_eq_ok.2 ⟨_, ih.value hv hs (follows_of_space hend (by simp)) hsteps, ?_⟩
      simp only [skipSpace_of_space hend rfl]
  | @cons _ _ _ ds es fs _ hs hv hnext hitems =>
      refine bind_eq_ok.2 ⟨_, ih.value hv hs (follows_of_space hnext (by simp)) hsteps, ?_⟩
      simp only [skipSpace_of_space hnext rfl]
      have hcs := hs.length_le
      have hvalue := hv.length_lt
      have hrest := hnext.length_le
      simp only [List.length_cons] at hrest
      exact ih.items hitems (by omega)

/-- A member that is written is skipped up to what stands behind its value. -/
theorem WrittenSkips.member (ih : WrittenSkips steps) {m : List Char × Value}
    (h : WrittenMember m cs r) (hr : Follows r) (hsteps : 2 * cs.length ≤ steps + 1) :
    ∃ t afterKey afterColon, skipSpace cs = '"' :: t ∧ skipString t = .ok afterKey ∧
      readColon afterKey = .ok afterColon ∧ skipValueIn steps afterColon = .ok r := by
  cases h with
  | @mk key v _ ds es fs _ hs hkey hcolon hs' hv =>
      have hcs := hs.length_le
      have hafter := hcolon.length_le
      simp only [List.length_cons, List.length_append] at hcs hafter
      exact ⟨_, ds, es, skipSpace_of_space hs rfl, skipString_eq_ok.2 ⟨key, hkey, rfl⟩,
        readColon_eq_ok.2 hcolon, ih.value hv hs' hr (by omega)⟩

theorem WrittenSkips.members_succ (ih : WrittenSkips steps) (h : WrittenMembers ms cs r)
    (hsteps : 2 * cs.length ≤ steps + 1) : skipMembersIn (steps + 1) cs = .ok r := by
  cases h with
  | last hm hend =>
      obtain ⟨t, afterKey, afterColon, hskip, hkey, hcolon, hvalue⟩ :=
        ih.member hm (follows_of_space hend (by simp)) hsteps
      simp only [skipMembersIn, hskip]
      refine bind_eq_ok.2 ⟨_, hkey, bind_eq_ok.2 ⟨_, hcolon, bind_eq_ok.2 ⟨_, hvalue, ?_⟩⟩⟩
      simp only [skipSpace_of_space hend rfl]
  | cons hm hnext hmembers =>
      obtain ⟨t, afterKey, afterColon, hskip, hkey, hcolon, hvalue⟩ :=
        ih.member hm (follows_of_space hnext (by simp)) hsteps
      simp only [skipMembersIn, hskip]
      refine bind_eq_ok.2 ⟨_, hkey, bind_eq_ok.2 ⟨_, hcolon, bind_eq_ok.2 ⟨_, hvalue, ?_⟩⟩⟩
      simp only [skipSpace_of_space hnext rfl]
      have hmember := hm.length_lt
      have hrest := hnext.length_le
      simp only [List.length_cons] at hrest
      exact ih.members hmembers (by omega)

/-- What is written is skipped. -/
theorem writtenSkips (steps : Nat) : WrittenSkips steps := by
  induction steps with
  | zero =>
      refine ⟨fun hv hs _ hsteps => ?_, fun hitems hsteps => ?_, fun hmembers hsteps => ?_⟩
      · have hcs := hs.length_le
        have hvalue := hv.length_lt
        omega
      · have hlength := hitems.length_lt
        omega
      · have hlength := hmembers.length_lt
        omega
  | succ steps ih => exact ⟨ih.value_succ, ih.items_succ, ih.members_succ⟩

/-- Values are skipped exactly where they are written. -/
theorem skipValue_eq_ok (hr : Follows r) :
    skipValue cs = .ok r ↔ ∃ v ds, Space cs ds ∧ Written v ds r := by
  constructor
  · exact (skipsWritten _).value
  · rintro ⟨v, ds, hs, hv⟩
    exact (writtenSkips _).value hv hs hr (by omega)

end Calculator.Json
