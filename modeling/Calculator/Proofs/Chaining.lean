/-
**Going on from a result.**

A result takes the place of the entry, so what is typed next continues its text: an operator with a
right operand, or a marker.  The intention is that the result is one operand then, as if it stood in
parentheses.  The four operations and the percent sign keep to it, for every result.  The square
does not for a negative one: it binds tighter than the minus sign, which is part of the text of the
result, and so it applies to the result without its sign.

Whether a square is among the markers that directly follow is seen in the tokens of the
continuation.  Where none is, or where the result is not negative, the continued text and the one
with parentheses have the same value, or fail with the same error.

Main results

* `Calculator.spells_of_continues`, `Calculator.separates_of_continues` — a continuation is scanned
  by itself, whatever it continues;
* `Calculator.evaluateText_parenthesized`, `Calculator.evaluateText_minus` — a number that a text
  goes on from may be put in parentheses, with its minus sign or behind it;
* `Calculator.Session.result_is_one_operand` — a result that is gone on from is one operand.
-/

import Calculator.Proofs.CanonicalTokens
import Calculator.Proofs.FailedEntry
import Calculator.Proofs.FirstOperand
import Calculator.Proofs.NumberText

set_option autoImplicit false

namespace Calculator

/-! ### Continuations -/

section Continuation

variable {before : Option Char} {c : Char} {cs : List Char} {t : Token} {ts : List Token}

/-- No word goes on after an operand. -/
theorem continues_of_ofWord? {word : List Char} (h : Token.ofWord? word = some t) :
    t.continues = false := by
  unfold Token.ofWord? at h
  split at h <;> cases h <;> rfl

/-- Nothing in front of a continuation runs into it. -/
theorem separates_of_continues (ht : t.continues) (h : scan before cs = .ok (t :: ts)) :
    Separates cs := by
  -- blanks are passed over; the first character that is none spells `t`
  induction cs generalizing before with
  | nil => simp at h
  | cons c cs ih =>
      rw [scan_cons] at h
      obtain ⟨x, hx, hscan⟩ := bind_eq_ok.1 h
      obtain ⟨us, hus, hts⟩ := prependTokens_eq_ok hscan
      cases startsLexeme hx with
      | blank hc hx =>
          subst hx
          cases hts
          exact separates_blank hc (ih hus)
      | symbol u hc hx =>
          subst hx
          cases hts
          exact separates_symbol hc ht cs
      | power hc _ =>
          subst hc
          exact separates_cons (by decide) cs
      | pi _ _ hx =>
          subst hx
          cases hts
          cases ht
      | root _ hx =>
          rw [hx, rootLexeme] at hts
          split at hts <;> cases hts <;> cases ht
      | word _ hx =>
          obtain ⟨u, hword, rfl⟩ := wordLexeme_eq_ok hx
          cases hts
          simp [continues_of_ofWord? hword] at ht
      | number hc hx =>
          obtain ⟨-, rfl⟩ := numberLexeme_eq_ok hc hx
          cases hts
          cases ht

/-- Only `π` looks at the character before it. -/
theorem lexeme_of_ne_pi (hc : c ≠ 'π') (before before' : Option Char) (cs : List Char) :
    lexeme before c cs = lexeme before' c cs := by
  simp only [lexeme, if_neg hc]

/-- A continuation is scanned to the same tokens whatever it continues. -/
theorem spells_of_continues (ht : t.continues) (h : scan before cs = .ok (t :: ts)) :
    Spells cs (t :: ts) := by
  intro before'
  cases cs with
  | nil => simp at h
  | cons c cs =>
      -- a continuation does not start with the one character that looks back
      have hc : c ≠ 'π' := by
        rintro rfl
        rw [scan_cons] at h
        obtain ⟨x, hx, hscan⟩ := bind_eq_ok.1 h
        obtain ⟨us, -, hts⟩ := prependTokens_eq_ok hscan
        have hpi : lexeme before 'π' cs =
            if before.any isWordChar then .error ⟨0, 'π'⟩ else .ok ⟨[.constant .pi], 0⟩ := rfl
        rw [hpi] at hx
        split at hx
        · cases hx
        · cases hx
          cases hts
          cases ht
      rw [scan_cons] at h ⊢
      rw [lexeme_of_ne_pi hc before' before]
      exact h

end Continuation

/-! ### A number that a text goes on from -/

/-- The value of a text depends on the value of the tree of its tokens. -/
theorem evaluateText_congr {s s' : String} {ts ts' : List Token} (hs : Token.ofText s = .ok ts)
    (hs' : Token.ofText s' = .ok ts')
    (h : (Expr.ofTokens ts).map Expr.fold = (Expr.ofTokens ts').map Expr.fold) :
    evaluateText s = evaluateText s' := by
  simp only [evaluateText, Expr.ofText, hs, hs']
  revert h
  cases Expr.ofTokens ts with
  | error e =>
      cases Expr.ofTokens ts' with
      | error e' =>
          intro h
          obtain rfl := Except.error.inj h
          rfl
      | ok e' => intro h; cases h
  | ok e =>
      cases Expr.ofTokens ts' with
      | error e' => intro h; cases h
      | ok e' =>
          intro h
          have hfold : e.fold = e'.fold := Except.ok.inj h
          simp only [Expr.evaluate, hfold]

section Number

variable {continuation : String} {cs : List Char} {t : Token} {ts : List Token}

/-- What a text goes on from may be replaced where its tokens may. -/
theorem evaluateText_append_congr {front front' : String} {us us' : List Token}
    (hfront : Spells front.toList us) (hfront' : Spells front'.toList us')
    (hcontinuation : Token.ofText continuation = .ok (t :: ts)) (ht : t.continues)
    (h : (Expr.ofTokens (us ++ t :: ts)).map Expr.fold =
      (Expr.ofTokens (us' ++ t :: ts)).map Expr.fold) :
    evaluateText (front ++ continuation) = evaluateText (front' ++ continuation) := by
  have hspells := spells_of_continues ht hcontinuation
  have hseparates := separates_of_continues ht hcontinuation
  have htokens {front : String} {us : List Token} (hus : Spells front.toList us) :
      Token.ofText (front ++ continuation) = .ok (us ++ t :: ts) := by
    rw [Token.ofText, String.toList_append]
    exact hus.append hseparates hspells none
  exact evaluateText_congr (htokens hfront) (htokens hfront') h

/-- **A number that a text goes on from may be put in parentheses**, unless it has a minus sign and
a square is among the markers that directly follow. -/
theorem evaluateText_parenthesized {number : String} (hcs : IsNumeral cs)
    (hnumber : number.toList = cs ∨
      number.toList = '-' :: cs ∧ .square ∉ (t :: ts).takeWhile Token.isMarker)
    (hcontinuation : Token.ofText continuation = .ok (t :: ts)) (ht : t.continues) :
    evaluateText (number ++ continuation) =
      evaluateText ("(" ++ number ++ ")" ++ continuation) := by
  have hgroup {us : List Token} (hus : Spells number.toList us) :
      Spells ("(" ++ number ++ ")").toList (.leftParen :: us ++ [.rightParen]) := by
    simp only [String.toList_append]
    exact spells_parenthesized (hus none)
  rcases hnumber with hplain | ⟨hminus, hsquare⟩
  · have hspells : Spells number.toList _ := hplain ▸ spells_numeral hcs
    exact evaluateText_append_congr hspells (hgroup hspells) hcontinuation ht
      (map_fold_ofTokens_number _ _)
  · have hspells : Spells number.toList _ := hminus ▸ (spells_numeral hcs).cons rfl
    exact evaluateText_append_congr hspells (hgroup hspells) hcontinuation ht
      (map_fold_ofTokens_minus _ _ hsquare)

/-- A minus sign in front of a number that a text goes on from stays outside: what directly follows
applies to the number without it. -/
theorem evaluateText_minus {magnitude : String} (hmagnitude : IsNumeral magnitude.toList)
    (hcontinuation : Token.ofText continuation = .ok (t :: ts)) (ht : t.continues) :
    evaluateText ("-" ++ magnitude ++ continuation) =
      evaluateText ("-(" ++ magnitude ++ ")" ++ continuation) := by
  let number : Token := .number (String.ofList magnitude.toList)
  have hbare : Spells ("-" ++ magnitude).toList [.minus, number] := by
    rw [String.toList_append]
    exact (spells_numeral hmagnitude).cons rfl
  have hgroup : Spells ("-(" ++ magnitude ++ ")").toList
      [.minus, .leftParen, number, .rightParen] := by
    simp only [String.toList_append]
    exact (spells_parenthesized (spells_numeral hmagnitude none)).cons rfl
  exact evaluateText_append_congr hbare hgroup hcontinuation ht
    (map_fold_ofTokens_minus_number _ _)

end Number

/-! ### Results -/

namespace Session

variable {s : Session} {a : Action} {expression : String}

/-- **A result that is gone on from is one operand.**  After every calculation that ends with a
finite result, the entry followed by a text that begins with an operator or a marker has the value
of the entry in parentheses followed by the same text, or fails with the same error, unless the
result is negative and a square is among the markers that directly follow.  A minus sign of the
entry always stays outside: what directly follows applies to the number without it. -/
theorem result_is_one_operand {v : Float} {continuation : String} {t : Token} {ts : List Token}
    (hended : (⟨s, a⟩ : Moment).ended? = some (expression, .ok v)) (hv : v.isFinite)
    (hcontinuation : Token.ofText continuation = .ok (t :: ts)) (ht : t.continues) :
    let entry := (s.step a).1.entry
    ((v < 0 → .square ∉ (t :: ts).takeWhile Token.isMarker) →
      evaluateText (entry ++ continuation) =
        evaluateText ("(" ++ entry ++ ")" ++ continuation)) ∧
    ∀ magnitude, entry = "-" ++ magnitude →
      evaluateText (entry ++ continuation) =
        evaluateText ("-(" ++ magnitude ++ ")" ++ continuation) := by
  obtain ⟨s', hs'⟩ := step_of_ended hended
  have hentry : (s.step a).1.entry = entryText v := by rw [hs', finish]
  obtain ⟨cs, hcs, htext⟩ := entryText_of_isFinite hv
  rw [hentry]
  constructor
  · intro hsquare
    exact evaluateText_parenthesized hcs (htext.imp_right fun h => ⟨h.2, hsquare h.1⟩)
      hcontinuation ht
  · intro magnitude hmagnitude
    have hlist : (entryText v).toList = '-' :: magnitude.toList := by
      rw [hmagnitude, String.toList_append]
      rfl
    have hnumeral : IsNumeral magnitude.toList := by
      rcases htext with hplain | ⟨-, hminus⟩
      · -- a numeral does not start with a minus sign
        have hall := hcs.all
        rw [← hplain, hlist] at hall
        cases hall
      · rw [hminus] at hlist
        exact (List.cons.inj hlist).2 ▸ hcs
    rw [hmagnitude]
    exact evaluateText_minus hnumeral hcontinuation ht

/-- A negative result goes on with a percent sign and a product. -/
theorem result_is_one_operand_percent :
    let s := (new {} false).run [.type "2-5"]
    let entry := (s.step .calculate).1.entry
    (⟨s, .calculate⟩ : Moment).ended? = some ("2-5", .ok (-3)) ∧ (-3 : Float).isFinite ∧
      Token.ofText "%*4" = .ok [.percent, .times, .number "4"] ∧ Token.percent.continues ∧
      .square ∉ [Token.percent, .times, .number "4"].takeWhile Token.isMarker ∧
      entry = "-" ++ "3" ∧
      evaluateText (entry ++ "%*4") = evaluateText ("(" ++ entry ++ ")" ++ "%*4") ∧
      evaluateText (entry ++ "%*4") = evaluateText ("-(" ++ "3" ++ ")" ++ "%*4") := by
  intro s entry
  have hended : (⟨s, .calculate⟩ : Moment).ended? = some ("2-5", .ok (-3)) := by decide +kernel
  have hv : (-3 : Float).isFinite := by decide +kernel
  have hcontinuation : Token.ofText "%*4" = .ok [.percent, .times, .number "4"] := by
    decide +kernel
  have hsquare : .square ∉ [Token.percent, .times, .number "4"].takeWhile Token.isMarker := by
    decide
  have hentry : entry = "-" ++ "3" := by decide +kernel
  obtain ⟨hgroup, hminus⟩ := result_is_one_operand hended hv hcontinuation rfl
  exact ⟨hended, hv, hcontinuation, rfl, hsquare, hentry, hgroup fun _ => hsquare,
    hminus "3" hentry⟩

/-- The square of the negative result minus three, gone on from, is minus nine; of the result in
parentheses it is nine. -/
theorem square_of_negative_result :
    let s := (new {} false).run [.type "2-5"]
    (⟨s, .calculate⟩ : Moment).ended? = some ("2-5", .ok (-3)) ∧
      Token.ofText "²" = .ok [.square] ∧
      evaluateText ((s.step .calculate).1.entry ++ "²") = .ok (-9) ∧
      evaluateText ("(" ++ (s.step .calculate).1.entry ++ ")" ++ "²") = .ok 9 := by
  decide +kernel

end Session

end Calculator
