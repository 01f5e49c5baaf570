/-
**Reading strings in JSON.**

A string ends at the first quote that no backslash stands in front of.  Up to there it is skipped
where its escapes are well formed, and read where they denote characters.

Main results

* `Calculator.Json.readHex_eq_ok` — the digits of an escape are read exactly where four of them
  stand;
* `Calculator.Json.skipString_eq_ok` — a string is skipped exactly where one is written;
* `Calculator.Json.readString_eq_ok` — **a string is read exactly where one is written that denotes
  a text, as that text**.
-/

import Calculator.Failure
import Calculator.Proofs.JsonGrammar
import Mathlib.Data.List.Induction

set_option autoImplicit false

namespace Calculator.Json

variable {cs ds r : List Char} {c d : Char} {n : Nat}

/-! ### Hexadecimal digits -/

theorem length_le_byteLength (cs : List Char) : cs.length ≤ byteLength cs := by
  induction cs with
  | nil => exact Nat.le_refl 0
  | cons c cs ih =>
      have hpos := c.utf8Size_pos
      simp only [List.length_cons, byteLength]
      omega

theorem byteLength_append (cs ds : List Char) :
    byteLength (cs ++ ds) = byteLength cs + byteLength ds := by
  induction cs with
  | nil => simp [byteLength]
  | cons c cs ih =>
      simp only [List.cons_append, byteLength, ih]
      omega

/-- A hexadecimal digit takes one byte. -/
theorem utf8Size_of_hexValue? (h : hexValue? c = some n) : c.utf8Size = 1 := by
  rw [Char.utf8Size_eq_one_iff, UInt32.le_iff_toNat_le, Char.toNat_val]
  have h9 : ('9').toNat = 57 := rfl
  have hf : ('f').toNat = 102 := rfl
  have hF : ('F').toNat = 70 := rfl
  have hmax : (127 : UInt32).toNat = 127 := rfl
  unfold hexValue? at h
  simp only [Char.isDigit_iff_toNat, Char.le_def, UInt32.le_iff_toNat_le, Char.toNat_val] at h
  split at h
  · omega
  · split at h
    · omega
    · split at h
      · omega
      · cases h

/-- Hexadecimal digits take one byte each. -/
theorem byteLength_of_hexNumber? (h : hexNumber? cs = some n) : byteLength cs = cs.length := by
  induction cs using List.reverseRecOn generalizing n with
  | nil => rfl
  | append_singleton cs c ih =>
      simp only [hexNumber?, List.foldl_append, List.foldl_cons, List.foldl_nil,
        Option.bind_eq_bind, Option.bind_eq_some_iff] at h
      obtain ⟨m, hm, k, hk, -⟩ := h
      rw [byteLength_append, ih hm, List.length_append]
      simp [byteLength, utf8Size_of_hexValue? hk]

/-- The digits of an escape are read exactly where four of them stand. -/
theorem readHex_eq_ok : readHex cs = .ok (n, r) ↔ ∃ hex, IsHex hex n ∧ cs = hex ++ r := by
  constructor
  · intro h
    unfold readHex at h
    split at h
    · cases h
    · rename_i hlong
      split at h
      · rename_i m hhex
        cases h
        refine ⟨cs.take 4, ⟨?_, hhex⟩, (List.take_append_drop 4 cs).symm⟩
        -- a shorter text would be all hexadecimal, and have no more bytes than characters
        by_contra hshort
        have hlen : cs.length < 4 := by
          rw [List.length_take] at hshort
          omega
        rw [List.take_of_length_le (by omega)] at hhex
        have hbytes := byteLength_of_hexNumber? hhex
        omega
      · cases h
  · rintro ⟨hex, ⟨hlen, hhex⟩, rfl⟩
    have hbytes := length_le_byteLength hex
    unfold readHex
    rw [byteLength_append, if_neg (by omega), ← hlen, List.take_left, List.drop_left, hhex]

/-! ### Escapes -/

/-- No single letter is the one in front of a number. -/
theorem ne_u_of_shortEscape? (h : shortEscape? c = some d) : c ≠ 'u' := by
  rintro rfl
  cases h

theorem skipEscape_of_ne (hc : c ≠ 'u') (cs : List Char) :
    skipEscape (c :: cs) =
      if (shortEscape? c).isSome then .ok cs else stopAtNext .invalidEscape (c :: cs) := by
  unfold skipEscape
  split
  · rename_i heq
    cases heq
  · rename_i heq
    exact absurd (List.cons.inj heq).1 hc
  · rename_i heq
    obtain ⟨rfl, rfl⟩ := List.cons.inj heq
    rfl

/-- An escape is skipped exactly where one is written. -/
theorem skipEscape_eq_ok : skipEscape cs = .ok r ↔ ∃ es, IsEscape es ∧ cs = es ++ r := by
  constructor
  · intro h
    cases cs with
    | nil => cases h
    | cons c cs =>
        by_cases hc : c = 'u'
        · obtain rfl := hc
          obtain ⟨⟨n, rest⟩, hread, hrest⟩ := bind_eq_ok.1 h
          cases hrest
          obtain ⟨hex, hhex, rfl⟩ := readHex_eq_ok.1 hread
          exact ⟨'u' :: hex, .unicode hhex, rfl⟩
        · rw [skipEscape_of_ne hc] at h
          split at h
          · rename_i hshort
            cases h
            obtain ⟨d, hd⟩ := Option.isSome_iff_exists.1 hshort
            exact ⟨[c], .short hd, rfl⟩
          · cases h
  · rintro ⟨es, hes, rfl⟩
    cases hes with
    | short h =>
        rw [List.singleton_append, skipEscape_of_ne (ne_u_of_shortEscape? h), h]
        rfl
    | @unicode hex n h =>
        exact bind_eq_ok.2 ⟨(n, r), readHex_eq_ok.2 ⟨hex, h, rfl⟩, rfl⟩

theorem expectAfterSurrogate_eq_ok : expectAfterSurrogate c cs = .ok r ↔ cs = c :: r := by
  cases cs with
  | nil => simp [expectAfterSurrogate, stop]
  | cons d ds =>
      simp only [expectAfterSurrogate]
      split
      · rename_i hd
        simp [hd]
      · rename_i hd
        simp [hd, stopAtNext]

/-- A character escaped by its number is read exactly where one is written. -/
theorem readUnicodeEscape_eq_ok :
    readUnicodeEscape cs = .ok (d, r) ↔ ∃ es, EscapeDenotes ('u' :: es) d ∧ cs = es ++ r := by
  constructor
  · intro h
    obtain ⟨⟨n, rest⟩, hread, hrest⟩ := bind_eq_ok.1 h
    clear h
    obtain ⟨hex, hhex, rfl⟩ := readHex_eq_ok.1 hread
    simp only at hrest
    split at hrest
    · cases hrest
    · rename_i htrailing
      split at hrest
      · rename_i hleading
        obtain ⟨afterBackslash, hbackslash, hpair⟩ := bind_eq_ok.1 hrest
        obtain ⟨afterLetter, hletter, hsecond⟩ := bind_eq_ok.1 hpair
        obtain ⟨⟨m, rest'⟩, hread', hend⟩ := bind_eq_ok.1 hsecond
        simp only at hend
        split at hend
        · rename_i htrailing'
          obtain ⟨rfl, rfl⟩ := Prod.mk.inj (Except.ok.inj hend)
          obtain ⟨hex', hhex', hafter⟩ := readHex_eq_ok.1 hread'
          refine ⟨_, .pair hhex hhex' hleading htrailing', ?_⟩
          rw [expectAfterSurrogate_eq_ok.1 hbackslash, expectAfterSurrogate_eq_ok.1 hletter, hafter]
          simp
        · cases hend
      · rename_i hleading
        cases hrest
        exact ⟨hex,
          .unicode hhex (Bool.eq_false_iff.2 hleading) (Bool.eq_false_iff.2 htrailing), rfl⟩
  · rintro ⟨es, hes, rfl⟩
    cases hes with
    | short h => cases h
    | @unicode _ n h hleading htrailing =>
        refine bind_eq_ok.2 ⟨(n, r), readHex_eq_ok.2 ⟨_, h, rfl⟩, ?_⟩
        simp [hleading, htrailing, pure, Except.pure]
    | @pair hex hex' n m h h' hleading htrailing =>
        refine bind_eq_ok.2 ⟨(n, '\\' :: 'u' :: (hex' ++ r)),
          readHex_eq_ok.2 ⟨hex, h, by simp⟩, ?_⟩
        have hnot : isTrailing n = false := by
          simp only [isLeading, isTrailing, Bool.and_eq_true, decide_eq_true_eq,
            Bool.and_eq_false_iff, decide_eq_false_iff_not] at hleading ⊢
          omega
        simp only [hnot, hleading, Bool.false_eq_true, if_false, if_true]
        refine bind_eq_ok.2 ⟨_, expectAfterSurrogate_eq_ok.2 rfl, ?_⟩
        refine bind_eq_ok.2 ⟨_, expectAfterSurrogate_eq_ok.2 rfl, ?_⟩
        refine bind_eq_ok.2 ⟨(m, r), readHex_eq_ok.2 ⟨hex', h', rfl⟩, ?_⟩
        simp [htrailing, pure, Except.pure]

theorem readEscape_of_ne (hc : c ≠ 'u') (cs : List Char) :
    readEscape (c :: cs) =
      match shortEscape? c with
      | some d => .ok (d, cs)
      | none => stopAtNext .invalidEscape (c :: cs) := by
  unfold readEscape
  split
  · rename_i heq
    cases heq
  · rename_i heq
    exact absurd (List.cons.inj heq).1 hc
  · rename_i heq
    obtain ⟨rfl, rfl⟩ := List.cons.inj heq
    rfl

/-- An escape is read exactly where one is written that denotes a character. -/
theorem readEscape_eq_ok :
    readEscape cs = .ok (d, r) ↔ ∃ es, EscapeDenotes es d ∧ cs = es ++ r := by
  constructor
  · intro h
    cases cs with
    | nil => cases h
    | cons c cs =>
        by_cases hc : c = 'u'
        · obtain rfl := hc
          obtain ⟨es, hes, rfl⟩ := readUnicodeEscape_eq_ok.1 h
          exact ⟨'u' :: es, hes, rfl⟩
        · rw [readEscape_of_ne hc] at h
          split at h
          · rename_i hshort
            cases h
            exact ⟨[c], .short hshort, rfl⟩
          · cases h
  · rintro ⟨es, hes, rfl⟩
    cases hes with
    | short h =>
        rw [List.singleton_append, readEscape_of_ne (ne_u_of_shortEscape? h), h]
    | unicode h hleading htrailing =>
        exact readUnicodeEscape_eq_ok.2 ⟨_, .unicode h hleading htrailing, rfl⟩
    | pair h h' hleading htrailing =>
        exact readUnicodeEscape_eq_ok.2 ⟨_, .pair h h' hleading htrailing, rfl⟩

/-! ### Strings -/

theorem isPlain_of_ne (hquote : c ≠ '"') (hbackslash : c ≠ '\\') (hcontrol : ¬ c.toNat < 0x20) :
    IsPlain c :=
  ⟨hquote, hbackslash, Nat.not_lt.1 hcontrol⟩

/-- A string that is skipped is written. -/
theorem exists_isContent_of_skipStringIn {steps : Nat} (h : skipStringIn steps cs = .ok r) :
    ∃ content, IsContent content ∧ cs = content ++ '"' :: r := by
  induction steps generalizing cs with
  | zero => cases h
  | succ steps ih =>
      cases cs with
      | nil => cases h
      | cons c cs =>
          simp only [skipStringIn] at h
          split at h
          · rename_i hquote
            cases h
            exact ⟨[], .nil, by simp [hquote]⟩
          · rename_i hquote
            split at h
            · rename_i hbackslash
              obtain ⟨rest, hescape, hrest⟩ := bind_eq_ok.1 h
              obtain ⟨es, hes, hcs⟩ := skipEscape_eq_ok.1 hescape
              obtain ⟨content, hcontent, rfl⟩ := ih hrest
              exact ⟨_, .escape hes hcontent, by simp [hbackslash, hcs]⟩
            · rename_i hbackslash
              split at h
              · cases h
              · rename_i hcontrol
                obtain ⟨content, hcontent, rfl⟩ := ih h
                exact ⟨_, .plain (isPlain_of_ne hquote hbackslash hcontrol) hcontent, rfl⟩

/-- A string that is written is skipped. -/
theorem skipStringIn_append {steps : Nat} (h : IsContent cs) (hsteps : cs.length < steps)
    (r : List Char) : skipStringIn steps (cs ++ '"' :: r) = .ok r := by
  induction h generalizing steps with
  | nil =>
      cases steps with
      | zero => simp at hsteps
      | succ steps => simp [skipStringIn]
  | plain hc _ ih =>
      cases steps with
      | zero => simp at hsteps
      | succ steps =>
          simp only [List.cons_append, skipStringIn, hc.1, hc.2.1, Nat.not_lt.2 hc.2.2, if_false]
          exact ih (by simpa using hsteps)
  | @escape es cs he _ ih =>
      cases steps with
      | zero => simp at hsteps
      | succ steps =>
          have hlength : cs.length < steps := by
            simp only [List.length_cons, List.length_append] at hsteps
            omega
          simp only [List.cons_append, skipStringIn, if_true]
          exact bind_eq_ok.2 ⟨_, skipEscape_eq_ok.2 ⟨es, he, List.append_assoc _ _ _⟩, ih hlength⟩

/-- A string is skipped exactly where one is written. -/
theorem skipString_eq_ok :
    skipString cs = .ok r ↔ ∃ content, IsContent content ∧ cs = content ++ '"' :: r := by
  constructor
  · exact exists_isContent_of_skipStringIn
  · rintro ⟨content, hcontent, rfl⟩
    exact skipStringIn_append hcontent (by rw [List.length_append]; omega) r

/-- A string that is read is written, and denotes what it is read as. -/
theorem exists_denotes_of_readStringIn {steps : Nat} (h : readStringIn steps cs = .ok (ds, r)) :
    ∃ content, Denotes content ds ∧ cs = content ++ '"' :: r := by
  induction steps generalizing cs ds with
  | zero => cases h
  | succ steps ih =>
      cases cs with
      | nil => cases h
      | cons c cs =>
          simp only [readStringIn] at h
          split at h
          · rename_i hquote
            cases h
            exact ⟨[], .nil, by simp [hquote]⟩
          · rename_i hquote
            split at h
            · rename_i hbackslash
              obtain ⟨⟨d, rest⟩, hescape, hrest⟩ := bind_eq_ok.1 h
              obtain ⟨⟨ds', r'⟩, hread, hend⟩ := bind_eq_ok.1 hrest
              obtain ⟨rfl, rfl⟩ := Prod.mk.inj (Except.ok.inj hend)
              obtain ⟨es, hes, hcs⟩ := readEscape_eq_ok.1 hescape
              obtain ⟨content, hcontent, rfl⟩ := ih hread
              exact ⟨_, .escape hes hcontent, by simp [hbackslash, hcs]⟩
            · rename_i hbackslash
              split at h
              · cases h
              · rename_i hcontrol
                obtain ⟨⟨ds', r'⟩, hread, hend⟩ := bind_eq_ok.1 h
                obtain ⟨rfl, rfl⟩ := Prod.mk.inj (Except.ok.inj hend)
                obtain ⟨content, hcontent, rfl⟩ := ih hread
                exact ⟨_, .plain (isPlain_of_ne hquote hbackslash hcontrol) hcontent, rfl⟩

/-- A string that is written is read as what it denotes. -/
theorem readStringIn_append {steps : Nat} (h : Denotes cs ds) (hsteps : cs.length < steps)
    (r : List Char) : readStringIn steps (cs ++ '"' :: r) = .ok (ds, r) := by
  induction h generalizing steps with
  | nil =>
      cases steps with
      | zero => simp at hsteps
      | succ steps => simp [readStringIn]
  | plain hc _ ih =>
      cases steps with
      | zero => simp at hsteps
      | succ steps =>
          simp only [List.cons_append, readStringIn, hc.1, hc.2.1, Nat.not_lt.2 hc.2.2, if_false]
          exact bind_eq_ok.2 ⟨_, ih (by simpa using hsteps), rfl⟩
  | @escape d es cs ds he _ ih =>
      cases steps with
      | zero => simp at hsteps
      | succ steps =>
          have hlength : cs.length < steps := by
            simp only [List.length_cons, List.length_append] at hsteps
            omega
          simp only [List.cons_append, readStringIn, if_true]
          refine bind_eq_ok.2 ⟨_, readEscape_eq_ok.2 ⟨es, he, List.append_assoc _ _ _⟩, ?_⟩
          exact bind_eq_ok.2 ⟨_, ih hlength, rfl⟩

/-- A string is read exactly where one is written that denotes a text, as that text. -/
theorem readString_eq_ok :
    readString cs = .ok (ds, r) ↔ ∃ content, Denotes content ds ∧ cs = content ++ '"' :: r := by
  constructor
  · exact exists_denotes_of_readStringIn
  · rintro ⟨content, hcontent, rfl⟩
    exact readStringIn_append hcontent (by rw [List.length_append]; omega) r

end Calculator.Json
