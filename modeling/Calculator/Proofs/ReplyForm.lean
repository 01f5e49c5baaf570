/-
**What an answer of the service may look like.**

An answer is accepted in two forms: as an object with exactly one member named `result`, a number,
and nothing but well formed members beside it whose names denote texts; or as a list of exactly one
number.  Nothing else is accepted.

Main definitions

* `Calculator.Service.HoldsResult` — exactly one member of an object is the result;
* `Calculator.Service.IsObjectReply`, `Calculator.Service.IsListReply` — the two forms.

Main results

* `Calculator.Service.readMembersIn_of_written`,
  `Calculator.Service.exists_members_of_readMembersIn` — the members of the answer are read exactly
  where they are written;
* `Calculator.Service.readReply_eq_ok` — an answer is read exactly in its two forms;
* `Calculator.Service.decodeReply_forms` — **exactly the answers of the two forms are accepted**,
  and a short number as the double nearest to it;
* `Calculator.Service.decodeReply_of_list`, `Calculator.Service.decodeReply_beside_nearest` — a list
  that is accepted, and a number with more digits that is not read as the nearest double.
-/

import Calculator.Proofs.JsonRounding
import Calculator.Proofs.JsonValues
import Calculator.Service

set_option autoImplicit false

namespace Calculator.Service

open Json

variable {cs ds r : List Char} {c : Char} {n : Numeral} {v w : Float}
  {m : List Char × Value} {ms : List (List Char × Value)}

/-! ### The two forms -/

/-- A member of an object is the result, and it is this number. -/
def IsResult (n : Numeral) (m : List Char × Value) : Prop :=
  Denotes m.1 "result".toList ∧ m.2 = .number n

/-- A member of an object has another name than the result. -/
def IsOther (m : List Char × Value) : Prop := ∃ name, Denotes m.1 name ∧ name ≠ "result".toList

/-- Exactly one member of an object is the result, and it is this number. -/
def HoldsResult (n : Numeral) (ms : List (List Char × Value)) : Prop :=
  ∃ front m back, ms = front ++ m :: back ∧ IsResult n m ∧ ∀ m' ∈ front ++ back, IsOther m'

/-- A text is an object that holds this number as its result. -/
def IsObjectReply (n : Numeral) (cs : List Char) : Prop :=
  ∃ ms, TextOf (.object ms) cs ∧ HoldsResult n ms

/-- A text is a list of this number alone. -/
def IsListReply (n : Numeral) (cs : List Char) : Prop := TextOf (.list [.number n]) cs

/-- Characters that stand for themselves denote themselves. -/
theorem denotes_of_isPlain (h : ∀ c ∈ cs, IsPlain c) : Denotes cs cs := by
  induction cs with
  | nil => exact .nil
  | cons c cs ih =>
      obtain ⟨hc, hcs⟩ := List.forall_mem_cons.1 h
      exact .plain hc (ih hcs)

/-- An object with nothing but a result. -/
theorem isObjectReply_result (n : Numeral) :
    IsObjectReply n ("\x7b\"result\":".toList ++ (n.text ++ ['}'])) := by
  have hname : Denotes "result".toList "result".toList := denotes_of_isPlain (by simp [IsPlain])
  have hmember : WrittenMember ("result".toList, .number n)
      ("\"result\":".toList ++ (n.text ++ ['}'])) ['}'] :=
    .mk (.refl _) (isContent_of_denotes hname) (.refl _) (.refl _) (.number n _)
  refine ⟨[("result".toList, .number n)], ⟨_, [], .refl _, ?_, .refl _⟩, ?_⟩
  · exact .object (.last hmember (.refl _))
  · exact ⟨[], _, [], rfl, ⟨hname, rfl⟩, by simp⟩

/-! ### Numbers -/

/-- What always fails still does so after something else. -/
theorem bind_ne_ok {α β : Type} {x : Except Stop α} {f : α → Except Stop β} {b : β}
    (hf : ∀ a, f a ≠ .ok b) : (x >>= f) ≠ .ok b := by
  intro h
  obtain ⟨a, -, hend⟩ := bind_eq_ok.1 h
  exact hf a hend

/-- A value of the wrong form is reported. -/
theorem wrongForm_ne_ok {α : Type} (expected : String) (cs : List Char) (a : α) :
    wrongForm expected cs ≠ .ok a := by
  have hreport {found : String} {ds : List Char} :
      (unexpected found expected ds : Except Stop α) ≠ .ok a := nofun
  unfold wrongForm
  split
  -- a value that is read is reported behind it, any other one where it stands
  case h_6 => exact hreport
  case h_7 => exact hreport
  case h_8 =>
    split
    · exact bind_ne_ok fun _ => hreport
    · nofun
  case h_9 => nofun
  all_goals exact bind_ne_ok fun _ => hreport

/-- What starts with a digit is read as a number. -/
theorem readResult_digit {t : List Char} (hskip : skipSpace cs = c :: t) (hc : c.isDigit) :
    readResult cs = do
      let (x, r) ← readNumber true (c :: t)
      return (x.toFloat, r) := by
  unfold readResult
  split
  · rename_i heq
    rw [hskip] at heq
    cases heq
  · rename_i heq
    rw [hskip] at heq
    cases heq
    cases hc
  · rename_i heq
    rw [hskip] at heq
    cases heq
    rw [if_pos hc]

/-- A number is read as a double exactly where one is written. -/
theorem readResult_eq_ok :
    readResult cs = .ok (v, r) ↔
      ∃ n : Numeral, Space cs (n.text ++ r) ∧ n.Ends r ∧ n.toFloat? = some v := by
  constructor
  · intro h
    unfold readResult at h
    split at h
    · cases h
    · rename_i t hskip
      obtain ⟨⟨x, r'⟩, hread, hend⟩ := bind_eq_ok.1 h
      cases hend
      obtain ⟨n, hn, rfl, hends, hnumber⟩ := readNumber_eq_ok.1 hread
      refine ⟨n, ?_, hends, by rw [Numeral.toFloat?, hnumber]; rfl⟩
      simpa [Numeral.text, hn] using space_of_skipSpace hskip
    · rename_i c t _ hskip
      split at h
      · obtain ⟨⟨x, r'⟩, hread, hend⟩ := bind_eq_ok.1 h
        cases hend
        obtain ⟨n, hn, hcs, hends, hnumber⟩ := readNumber_eq_ok.1 hread
        refine ⟨n, ?_, hends, by rw [Numeral.toFloat?, hnumber]; rfl⟩
        simpa [Numeral.text, hn, hcs] using space_of_skipSpace hskip
      · exact absurd h (wrongForm_ne_ok _ _ _)
  · rintro ⟨n, hs, hends, hv⟩
    obtain ⟨x, hnumber, rfl⟩ := Option.map_eq_some_iff.1 hv
    have hread := (readNumber_magnitudeText hends).2 hnumber
    obtain ⟨c, t, htext, hc⟩ := n.exists_text_eq
    cases hsign : n.negative with
    | true =>
        rw [hsign] at hread
        rw [Numeral.text, if_pos hsign] at hs
        unfold readResult
        simp only [skipSpace_of_space hs rfl]
        exact bind_eq_ok.2 ⟨_, hread, rfl⟩
    | false =>
        rw [hsign, htext] at hread
        rw [Numeral.text, if_neg (Bool.eq_false_iff.1 hsign), htext] at hs
        rw [readResult_digit (skipSpace_of_space hs (isSpace_of_isDigit hc)) hc]
        exact bind_eq_ok.2 ⟨_, hread, rfl⟩

/-! ### Members -/

/-- What is known of the result after a member. -/
inductive Takes : Option Float → List Char × Value → Option Float → Prop where
  | other {result : Option Float} {m : List Char × Value} (h : IsOther m) : Takes result m result
  | result {n : Numeral} {m : List Char × Value} {v : Float} (h : IsResult n m)
      (hv : n.toFloat? = some v) : Takes none m (some v)

/-- What is known of the result after some members. -/
inductive Knows : Option Float → List (List Char × Value) → Option Float → Prop where
  | nil {result : Option Float} : Knows result [] result
  | cons {result result' result'' : Option Float} {m : List Char × Value}
      {ms : List (List Char × Value)} (hm : Takes result m result')
      (h : Knows result' ms result'') :
      Knows result (m :: ms) result''

/-- A result that is known stays, and there is no other one. -/
theorem knows_some_iff : Knows (some w) ms (some v) ↔ w = v ∧ ∀ m ∈ ms, IsOther m := by
  induction ms with
  | nil =>
      constructor
      · rintro ⟨⟩
        exact ⟨rfl, by simp⟩
      · rintro ⟨rfl, -⟩
        exact .nil
  | cons m ms ih =>
      constructor
      · rintro (_ | ⟨⟨hother⟩, h⟩)
        obtain ⟨rfl, hms⟩ := ih.1 h
        exact ⟨rfl, List.forall_mem_cons.2 ⟨hother, hms⟩⟩
      · rintro ⟨rfl, hms⟩
        obtain ⟨hother, hms⟩ := List.forall_mem_cons.1 hms
        exact .cons (.other hother) (ih.2 ⟨rfl, hms⟩)

/-- From nothing the result is known exactly if one member holds it. -/
theorem knows_none_iff :
    Knows none ms (some v) ↔ ∃ n, HoldsResult n ms ∧ n.toFloat? = some v := by
  induction ms with
  | nil =>
      constructor
      · rintro ⟨⟩
      · rintro ⟨n, ⟨front, m, back, h, -⟩, -⟩
        simp at h
  | cons m ms ih =>
      constructor
      · rintro (_ | ⟨hm, h⟩)
        cases hm with
        | other hother =>
            obtain ⟨n, ⟨front, m', back, rfl, hresult, hothers⟩, hv⟩ := ih.1 h
            exact ⟨n, ⟨m :: front, m', back, rfl, hresult,
              List.forall_mem_cons.2 ⟨hother, hothers⟩⟩, hv⟩
        | result hresult hv =>
            obtain ⟨rfl, hothers⟩ := knows_some_iff.1 h
            exact ⟨_, ⟨[], m, ms, rfl, hresult, hothers⟩, hv⟩
      · rintro ⟨n, ⟨front, m', back, hms, hresult, hothers⟩, hv⟩
        cases front with
        | nil =>
            obtain ⟨rfl, rfl⟩ := List.cons.inj hms
            exact .cons (.result hresult hv) (knows_some_iff.2 ⟨rfl, hothers⟩)
        | cons m'' front =>
            obtain ⟨rfl, rfl⟩ := List.cons.inj hms
            obtain ⟨hother, hothers⟩ := List.forall_mem_cons.1 hothers
            exact .cons (.other hother) (ih.2 ⟨n, ⟨front, m', back, rfl, hresult, hothers⟩, hv⟩)

/-- A member of the answer, after its name. -/
def readMember (result : Option Float) (name cs : List Char) :
    Except Stop (Option Float × List Char) :=
  if name = "result".toList then
    if result.isSome then stop (.form "duplicate field `result`") (afterBrace cs)
    else do
      let (v, r) ← readResult (← readColon cs)
      pure (some v, r)
  else do
    let r ← skipValue (← readColon cs)
    pure (result, r)

/-- The members of the answer from what stands behind one of them. -/
def afterMember (steps : Nat) (result : Option Float) (cs : List Char) :
    Except Stop (Float × List Char) :=
  match skipSpace cs with
  | '}' :: r => finishObject result r
  | ',' :: r =>
      match skipSpace r with
      | '}' :: _ => stopAtNext .trailingComma (skipSpace r)
      | [] => stop .endInValue []
      | r => readMembersIn steps result r
  | [] => stop .endInObject []
  | r => stopAtNext .expectedObjectSeparator r

/-- The members of the answer are read one after the other. -/
theorem readMembersIn_succ {steps : Nat} {result : Option Float} {t : List Char}
    (hskip : skipSpace cs = '"' :: t) :
    readMembersIn (steps + 1) result cs = (do
      let (name, r) ← readString t
      let (result, r) ← readMember result name r
      afterMember steps result r) := by
  simp only [readMembersIn, hskip]
  cases readString t with
  | error e => rfl
  | ok x =>
      obtain ⟨name, r⟩ := x
      change (if name = "result".toList then _ else _) = (readMember result name r >>= _)
      unfold readMember
      by_cases hname : name = "result".toList
      · rw [if_pos hname, if_pos hname]
        cases result with
        | some w => rfl
        | none =>
            cases readColon r with
            | error e => rfl
            | ok r =>
                simp only [bind, Except.bind]
                cases readResult r <;> rfl
      · rw [if_neg hname, if_neg hname]
        cases readColon r with
        | error e => rfl
        | ok r =>
            simp only [bind, Except.bind]
            cases skipValue r <;> rfl

theorem exists_quote_of_readMembersIn {steps : Nat} {result : Option Float}
    (h : readMembersIn (steps + 1) result cs = .ok (v, r)) : ∃ t, skipSpace cs = '"' :: t := by
  simp only [readMembersIn] at h
  split at h
  · rename_i t hskip
    exact ⟨t, hskip⟩
  · cases h
  · cases h

/-- Behind a member the members end, or another one is read. -/
theorem afterMember_eq_ok {steps : Nat} {result : Option Float} :
    afterMember steps result cs = .ok (v, r) ↔
      (Space cs ('}' :: r) ∧ result = some v) ∨
        ∃ ds, Space cs (',' :: ds) ∧ skipSpace ds ≠ [] ∧ (skipSpace ds).head? ≠ some '}' ∧
          readMembersIn steps result (skipSpace ds) = .ok (v, r) := by
  constructor
  · intro h
    unfold afterMember at h
    split at h
    · rename_i t hskip
      unfold finishObject at h
      split at h
      · cases h
        exact .inl ⟨space_of_skipSpace hskip, rfl⟩
      · cases h
    · rename_i t hskip
      split at h
      · cases h
      · cases h
      · rename_i hbrace hnil
        exact .inr ⟨t, space_of_skipSpace hskip, hnil, head?_ne_of_forall hbrace, h⟩
    · cases h
    · cases h
  · rintro (⟨hs, rfl⟩ | ⟨ds, hs, hnil, hbrace, h⟩)
    · simp only [afterMember, skipSpace_of_space hs rfl, finishObject]
    · simp only [afterMember, skipSpace_of_space hs rfl]
      split
      · rename_i heq
        exact absurd (congrArg List.head? heq) hbrace
      · rename_i heq
        exact absurd heq hnil
      · exact h

/-- A member that is read is written, and it is taken for what it is. -/
theorem exists_member_of_readMember {result result' : Option Float} {t name afterKey : List Char}
    (hname : readString t = .ok (name, afterKey))
    (h : readMember result name afterKey = .ok (result', r)) :
    ∃ m, WrittenMember m ('"' :: t) r ∧ Takes result m result' := by
  obtain ⟨key, hkey, rfl⟩ := readString_eq_ok.1 hname
  have hcontent := isContent_of_denotes hkey
  unfold readMember at h
  split at h
  · rename_i hresult
    rw [hresult] at hkey
    split at h
    · cases h
    · rename_i hnone
      obtain rfl : result = none := by simpa using hnone
      obtain ⟨afterColon, hcolon, h⟩ := bind_eq_ok.1 h
      obtain ⟨⟨v, r'⟩, hread, hend⟩ := bind_eq_ok.1 h
      cases hend
      obtain ⟨n, hs, -, hv⟩ := readResult_eq_ok.1 hread
      exact ⟨(key, .number n),
        .mk (.refl _) hcontent (readColon_eq_ok.1 hcolon) hs (.number n r),
        .result ⟨hkey, rfl⟩ hv⟩
  · rename_i hother
    obtain ⟨afterColon, hcolon, h⟩ := bind_eq_ok.1 h
    obtain ⟨r', hskip, hend⟩ := bind_eq_ok.1 h
    cases hend
    obtain ⟨v, ds, hs, hv⟩ := (skipsWritten _).value hskip
    exact ⟨(key, v), .mk (.refl _) hcontent (readColon_eq_ok.1 hcolon) hs hv,
      .other ⟨name, hkey, hother⟩⟩

/-- A member that is written is read and taken for what it is. -/
theorem readMember_of_written {result result' : Option Float} (h : WrittenMember m cs r)
    (hm : Takes result m result') (hr : Follows r) :
    ∃ t name afterKey, skipSpace cs = '"' :: t ∧ readString t = .ok (name, afterKey) ∧
      readMember result name afterKey = .ok (result', r) := by
  cases h with
  | @mk key v _ ds es fs _ hs hkey hcolon hs' hv =>
      have hskip := skipSpace_of_space hs rfl
      cases hm with
      | other hother =>
          obtain ⟨name, hdenotes, hname⟩ := hother
          refine ⟨_, name, ds, hskip, readString_eq_ok.2 ⟨key, hdenotes, rfl⟩, ?_⟩
          unfold readMember
          rw [if_neg hname]
          refine bind_eq_ok.2 ⟨es, readColon_eq_ok.2 hcolon, ?_⟩
          exact bind_eq_ok.2 ⟨r, (skipValue_eq_ok hr).2 ⟨v, fs, hs', hv⟩, rfl⟩
      | @result n _ w hresult hw =>
          obtain ⟨hdenotes, rfl⟩ := hresult
          refine ⟨_, _, ds, hskip, readString_eq_ok.2 ⟨key, hdenotes, rfl⟩, ?_⟩
          unfold readMember
          rw [if_pos rfl]
          cases hv with
          | number =>
              refine bind_eq_ok.2 ⟨es, readColon_eq_ok.2 hcolon, ?_⟩
              exact bind_eq_ok.2 ⟨(w, r), readResult_eq_ok.2 ⟨n, hs', hr.ends n, hw⟩, rfl⟩

/-- Members that are read are written, and the result is known from them. -/
theorem exists_members_of_readMembersIn {steps : Nat} {result : Option Float}
    (h : readMembersIn steps result cs = .ok (v, r)) :
    ∃ ms, WrittenMembers ms cs r ∧ Knows result ms (some v) := by
  induction steps generalizing result cs with
  | zero => cases h
  | succ steps ih =>
      obtain ⟨t, hskip⟩ := exists_quote_of_readMembersIn h
      rw [readMembersIn_succ hskip] at h
      obtain ⟨⟨name, afterKey⟩, hname, h⟩ := bind_eq_ok.1 h
      obtain ⟨⟨result', rest⟩, hmember, h⟩ := bind_eq_ok.1 h
      obtain ⟨m, hm, htakes⟩ := exists_member_of_readMember hname hmember
      have hm' := hm.of_space (space_of_skipSpace hskip)
      rcases afterMember_eq_ok.1 h with ⟨hend, rfl⟩ | ⟨ds, hnext, -, -, h⟩
      · exact ⟨[m], .last hm' hend, .cons htakes .nil⟩
      · obtain ⟨ms, hms, hknows⟩ := ih h
        exact ⟨m :: ms, .cons hm' hnext (hms.of_space (space_skipSpace ds)), .cons htakes hknows⟩

/-- Members that are written are read, if there are enough steps. -/
theorem readMembersIn_of_written {steps : Nat} {result : Option Float}
    (h : WrittenMembers ms cs r) (hknows : Knows result ms (some v)) (hsteps : cs.length ≤ steps) :
    readMembersIn steps result cs = .ok (v, r) := by
  induction steps generalizing result ms cs with
  | zero =>
      have hlength := h.length_lt
      omega
  | succ steps ih =>
      cases h with
      | last hm hend =>
          cases hknows with
          | cons htakes hknows =>
              cases hknows with
              | nil =>
                  obtain ⟨t, name, afterKey, hskip, hname, hmember⟩ :=
                    readMember_of_written hm htakes (follows_of_space hend (by simp))
                  rw [readMembersIn_succ hskip]
                  refine bind_eq_ok.2 ⟨_, hname, bind_eq_ok.2 ⟨_, hmember, ?_⟩⟩
                  exact afterMember_eq_ok.2 (.inl ⟨hend, rfl⟩)
      | @cons m ms _ ds es _ hm hnext hms =>
          cases hknows with
          | cons htakes hknows =>
              obtain ⟨t, name, afterKey, hskip, hname, hmember⟩ :=
                readMember_of_written hm htakes (follows_of_space hnext (by simp))
              obtain ⟨t', hquote, hms'⟩ := hms.exists_quote
              have hmemberLength := hm.length_lt
              have hnextLength := hnext.length_le
              have hspaceLength := length_skipSpace_le es
              simp only [List.length_cons] at hnextLength
              rw [readMembersIn_succ hskip]
              refine bind_eq_ok.2 ⟨_, hname, bind_eq_ok.2 ⟨_, hmember, ?_⟩⟩
              refine afterMember_eq_ok.2 (.inr ⟨es, hnext, ?_, ?_, ?_⟩)
              · simp [hquote]
              · simp [hquote]
              · rw [hquote] at hspaceLength ⊢
                exact ih hms' hknows (by omega)

/-! ### Answers -/

/-- The object form is read exactly where it is written. -/
theorem readObjectReply_eq_ok :
    readObjectReply cs = .ok (v, r) ↔
      ∃ ms n, Written (.object ms) ('{' :: cs) r ∧ HoldsResult n ms ∧ n.toFloat? = some v := by
  constructor
  · intro h
    unfold readObjectReply at h
    split at h
    · cases h
    · obtain ⟨ms, hms, hknows⟩ := exists_members_of_readMembersIn h
      obtain ⟨n, hholds, hv⟩ := knows_none_iff.1 hknows
      exact ⟨ms, n, .object (hms.of_space (space_skipSpace cs)), hholds, hv⟩
  · rintro ⟨ms, n, hwritten, hholds, hv⟩
    cases hwritten with
    | emptyObject =>
        obtain ⟨front, m, back, hms, -⟩ := hholds
        simp at hms
    | object hms =>
        obtain ⟨t, hquote, hms'⟩ := hms.exists_quote
        unfold readObjectReply
        rw [hquote]
        exact readMembersIn_of_written hms' (knows_none_iff.2 ⟨n, hholds, hv⟩) (by omega)

/-- The list form is read exactly where it is written. -/
theorem readListReply_eq_ok :
    readListReply cs = .ok (v, r) ↔
      ∃ n : Numeral, Written (.list [.number n]) ('[' :: cs) r ∧ n.toFloat? = some v := by
  constructor
  · intro h
    unfold readListReply at h
    split at h
    · cases h
    · cases h
    · obtain ⟨⟨w, rest⟩, hread, h⟩ := bind_eq_ok.1 h
      obtain ⟨n, hs, -, hv⟩ := readResult_eq_ok.1 hread
      simp only at h
      split at h
      · rename_i t hskip
        cases h
        exact ⟨n, .list (.last ((space_skipSpace cs).trans hs) (.number n _)
          (space_of_skipSpace hskip)), hv⟩
      · cases h
      · cases h
      · cases h
  · rintro ⟨n, hwritten, hv⟩
    cases hwritten with
    | list hitems =>
        cases hitems with
        | cons _ _ _ hitems => cases hitems
        | last hs hnumber hend =>
            have hends : n.Ends _ := (follows_of_space hend (by simp)).ends n
            obtain ⟨c, t, htext, hspace, hc⟩ := hnumber.exists_cons
            cases hnumber with
            | number =>
                have hread := readResult_eq_ok.2 ⟨n, Space.refl _, hends, hv⟩
                rw [htext] at hread
                rw [htext] at hs
                simp only [readListReply, skipSpace_of_space hs hspace]
                split
                · rename_i heq
                  cases heq
                · rename_i heq
                  exact absurd (List.cons.inj heq).1 hc
                · refine bind_eq_ok.2 ⟨_, hread, ?_⟩
                  simp only [skipSpace_of_space hend rfl]
                  rfl

/-- The answer, and what stands behind it. -/
def readForm (cs : List Char) : Except Stop (Float × List Char) :=
  match skipSpace cs with
  | [] => stop .endInValue []
  | '[' :: r => readListReply r
  | '{' :: r => readObjectReply r
  | r => wrongForm replyForm r

theorem readForm_eq_ok :
    readForm cs = .ok (v, r) ↔
      (∃ ds, Space cs ('[' :: ds) ∧ readListReply ds = .ok (v, r)) ∨
        ∃ ds, Space cs ('{' :: ds) ∧ readObjectReply ds = .ok (v, r) := by
  constructor
  · intro h
    unfold readForm at h
    split at h
    · cases h
    · rename_i ds hskip
      exact .inl ⟨ds, space_of_skipSpace hskip, h⟩
    · rename_i ds hskip
      exact .inr ⟨ds, space_of_skipSpace hskip, h⟩
    · exact absurd h (wrongForm_ne_ok _ _ _)
  · rintro (⟨ds, hs, h⟩ | ⟨ds, hs, h⟩) <;> simpa only [readForm, skipSpace_of_space hs rfl] using h

theorem readReply_eq_bind (cs : List Char) :
    readReply cs = (do
      let (v, r) ← readForm cs
      match skipSpace r with
      | [] => return v
      | r => stopAtNext .trailingCharacters r) := by
  unfold readReply
  split
  · rename_i hskip
    have hform : readForm cs = stop .endInValue [] := by simp only [readForm, hskip]
    exact hform ▸ rfl
  · rename_i r hskip
    have hform : readForm cs = readListReply r := by simp only [readForm, hskip]
    exact hform ▸ rfl
  · rename_i r hskip
    have hform : readForm cs = readObjectReply r := by simp only [readForm, hskip]
    exact hform ▸ rfl
  · rename_i hnil hbracket hbrace
    have hform : readForm cs = wrongForm replyForm (skipSpace cs) := by
      unfold readForm
      split
      · rename_i hskip
        exact absurd hskip hnil
      · rename_i r hskip
        exact absurd hskip (hbracket r)
      · rename_i r hskip
        exact absurd hskip (hbrace r)
      · rfl
    exact hform ▸ rfl

/-- Nothing but space stands behind an answer. -/
theorem readReply_eq_ok_iff_space :
    readReply cs = .ok v ↔ ∃ r, readForm cs = .ok (v, r) ∧ Space r [] := by
  rw [readReply_eq_bind]
  constructor
  · intro h
    obtain ⟨⟨w, r⟩, hread, hend⟩ := bind_eq_ok.1 h
    simp only at hend
    split at hend
    · rename_i hskip
      cases hend
      exact ⟨r, hread, skipSpace_eq_nil.1 hskip⟩
    · cases hend
  · rintro ⟨r, hread, hend⟩
    refine bind_eq_ok.2 ⟨(v, r), hread, ?_⟩
    simp only [skipSpace_eq_nil.2 hend]
    rfl

/-- An answer is read exactly in its two forms. -/
theorem readReply_eq_ok :
    readReply cs = .ok v ↔
      ∃ n : Numeral, n.toFloat? = some v ∧ (IsObjectReply n cs ∨ IsListReply n cs) := by
  rw [readReply_eq_ok_iff_space]
  constructor
  · rintro ⟨r, hread, hend⟩
    rcases readForm_eq_ok.1 hread with ⟨ds, hs, hlist⟩ | ⟨ds, hs, hobject⟩
    · obtain ⟨n, hwritten, hv⟩ := readListReply_eq_ok.1 hlist
      exact ⟨n, hv, .inr ⟨_, r, hs, hwritten, hend⟩⟩
    · obtain ⟨ms, n, hwritten, hholds, hv⟩ := readObjectReply_eq_ok.1 hobject
      exact ⟨n, hv, .inl ⟨ms, ⟨_, r, hs, hwritten, hend⟩, hholds⟩⟩
  · rintro ⟨n, hv, ⟨ms, ⟨ds, r, hs, hwritten, hend⟩, hholds⟩ | ⟨ds, r, hs, hwritten, hend⟩⟩
    · obtain ⟨t, rfl⟩ := hwritten.exists_brace
      have hread := readObjectReply_eq_ok.2 ⟨ms, n, hwritten, hholds, hv⟩
      exact ⟨r, readForm_eq_ok.2 (.inr ⟨t, hs, hread⟩), hend⟩
    · obtain ⟨t, rfl⟩ := hwritten.exists_bracket
      have hread := readListReply_eq_ok.2 ⟨n, hwritten, hv⟩
      exact ⟨r, readForm_eq_ok.2 (.inl ⟨t, hs, hread⟩), hend⟩

theorem head?_of_textOf_object (h : TextOf (.object ms) cs) :
    (skipSpace cs).head? = some '{' := by
  obtain ⟨ds, r, hs, hobject, -⟩ := h
  obtain ⟨t, rfl⟩ := hobject.exists_brace
  rw [skipSpace_of_space hs rfl, List.head?_cons]

/-- An answer is accepted as a finite double exactly if it is read as one. -/
theorem decodeReply_eq_ok {body : String} :
    decodeReply body = .ok v ↔ readReply body.toList = .ok v ∧ v.isFinite := by
  unfold decodeReply
  cases readReply body.toList with
  | error s => simp
  | ok w =>
      simp only
      split
      · rename_i hfinite
        constructor
        · rintro ⟨⟩
          exact ⟨rfl, hfinite⟩
        · rintro ⟨⟨⟩, -⟩
          rfl
      · rename_i hfinite
        constructor
        · rintro ⟨⟩
        · rintro ⟨⟨⟩, hv⟩
          exact absurd hv hfinite

/-- An answer that is not accepted is reported as invalid. -/
theorem decodeReply_cases (body : String) :
    (∃ v, decodeReply body = .ok v) ∨
      ∃ reason, decodeReply body = .error (.invalidReply reason) := by
  unfold decodeReply
  split
  · exact .inr ⟨_, rfl⟩
  · split
    · exact .inl ⟨_, rfl⟩
    · exact .inr ⟨_, rfl⟩

/-- Exactly the answers of the two forms are accepted, as the number that they hold, unless it is
out of range; every other one is reported as invalid.  If the number is short, then it is in range
and no double is nearer to it than the one that it is accepted as. -/
theorem decodeReply_forms (body : String) :
    (∀ v, decodeReply body = .ok v ↔
      v.isFinite ∧ ∃ n : Numeral, n.toFloat? = some v ∧
        (IsObjectReply n body.toList ∨ IsListReply n body.toList)) ∧
    ((∃ v, decodeReply body = .ok v) ∨
      ∃ reason, decodeReply body = .error (.invalidReply reason)) ∧
    ∀ n : Numeral, IsObjectReply n body.toList ∨ IsListReply n body.toList → n.IsShort →
      ∃ v, decodeReply body = .ok v ∧
        ∀ w : Float, w.isFinite → |Double.value v - n.value| ≤ |Double.value w - n.value| := by
  have hforms (v : Float) : decodeReply body = .ok v ↔
      v.isFinite ∧ ∃ n : Numeral, n.toFloat? = some v ∧
        (IsObjectReply n body.toList ∨ IsListReply n body.toList) := by
    rw [decodeReply_eq_ok, readReply_eq_ok, and_comm]
  refine ⟨hforms, decodeReply_cases body, fun n hform hshort => ?_⟩
  obtain ⟨v, hv, hfinite, hnearest⟩ := Numeral.toFloat?_nearest hshort
  exact ⟨v, (hforms v).2 ⟨hfinite, n, hv, hform⟩, hnearest⟩

/-- A short result in an object is accepted as the double nearest to it. -/
theorem decodeReply_of_result :
    ∃ n : Numeral, n.text = "-0.3".toList ∧ n.IsShort ∧ ∃ v,
      decodeReply "\x7b\"result\":-0.3\x7d" = .ok v ∧
        ∀ w : Float, w.isFinite → |Double.value v - n.value| ≤ |Double.value w - n.value| := by
  let n : Numeral := ⟨true, ['0'], ['3'], none, by simp, by simp, by simp, by simp⟩
  have hshort : n.IsShort := .inr (by decide)
  have hform : IsObjectReply n "\x7b\"result\":-0.3\x7d".toList := by
    have htext : "\x7b\"result\":-0.3\x7d".toList =
        "\x7b\"result\":".toList ++ (n.text ++ ['}']) := rfl
    rw [htext]
    exact isObjectReply_result n
  refine ⟨n, rfl, hshort, ?_⟩
  exact (decodeReply_forms "\x7b\"result\":-0.3\x7d").2.2 n (.inl hform) hshort

/-- A list of one number is accepted although it is no object. -/
theorem decodeReply_of_list :
    decodeReply "[14]" = .ok 14 ∧ ∀ ms, ¬ TextOf (.object ms) "[14]".toList := by
  refine ⟨by decide +kernel, fun ms hobject => ?_⟩
  exact absurd (head?_of_textOf_object hobject) (by decide +kernel)

/-- A result with seventeen digits is not short, and it is accepted as a double beside the nearest
one: its digits are rounded, and the quotient by the power of ten once more. -/
theorem decodeReply_beside_nearest :
    ∃ (n : Numeral) (v w : Float), n.text = "0.12345678901234567".toList ∧
      IsObjectReply n "\x7b\"result\":0.12345678901234567\x7d".toList ∧
      decodeReply "\x7b\"result\":0.12345678901234567\x7d" = .ok v ∧ w.isFinite ∧
      |Double.value w - n.value| < |Double.value v - n.value| := by
  let n : Numeral := ⟨false, ['0'], "12345678901234567".toList, none, by simp, by simp, by simp,
    by simp⟩
  -- two neighbours, between which the number lies
  let v := Float.ofBits 0x3fbf9add3746f65f
  let w := Float.ofBits 0x3fbf9add3746f65e
  have hread : decodeReply "\x7b\"result\":0.12345678901234567\x7d" = .ok v := by decide +kernel
  have hv : Double.value v = (2 ^ 52 + 0xf9add3746f65f) / 2 ^ 56 := by
    have hsign : Double.isNegative v = false := by decide
    rw [Double.value_of_bits (e := 1019) (m := 0xf9add3746f65f) (by decide) (by decide) (by decide)
      (by decide), hsign]
    norm_num [Double.leadingBit]
  have hw : Double.value w = (2 ^ 52 + 0xf9add3746f65e) / 2 ^ 56 := by
    have hsign : Double.isNegative w = false := by decide
    rw [Double.value_of_bits (e := 1019) (m := 0xf9add3746f65e) (by decide) (by decide) (by decide)
      (by decide), hsign]
    norm_num [Double.leadingBit]
  have hn : n.value = 12345678901234567 / 10 ^ 17 := by
    have hdecimal : n.decimal = ⟨12345678901234567, -17⟩ := by decide +kernel
    have hsign : n.negative = false := rfl
    rw [Numeral.value, hsign, hdecimal, Decimal.value]
    norm_num
  refine ⟨n, v, w, rfl, isObjectReply_result n, hread, by decide, ?_⟩
  rw [hv, hw, hn]
  norm_num

end Calculator.Service
