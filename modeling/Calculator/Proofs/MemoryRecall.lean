/-
**Recalling the memory.**

Recalling inserts the number in the memory as text, in parentheses if it is negative.  Into an empty
entry it puts an entry that is worth the number, since the entry text reads back.  The intention is
that this is so whatever the memory holds.  Nothing keeps the register within the finite range,
though, where a sum may overflow, and what is inserted for a number that is not finite is its name,
`inf`, `(-inf)` or `NaN`.  The entry field knows no such names, so the entry is refused at its first
letter and is worth nothing.

Main results

* `Calculator.evaluateText_operandText` — the text that is inserted for a finite number is worth it;
* `Calculator.operandText_of_not_finite`, `Calculator.exists_lexical_operandText` — the text that is
  inserted for any other number is its name, and writes no expression;
* `Calculator.Session.recall_gives_back_iff` — **an empty entry is worth the memory after recalling
  it exactly if the memory is finite**, and is no expression otherwise;
* `Calculator.Session.recall_of_overflow` — a sum that overflows in the register.
-/

import Calculator.Proofs.EntryText
import Calculator.Session.Action

set_option autoImplicit false

namespace Calculator

section Number

variable {v : Float}

/-- The text that stands for a finite number within an expression is worth the number. -/
theorem evaluateText_operandText (hv : v.isFinite) :
    evaluateText (Session.operandText v) = .ok (if v == 0 then 0 else v) := by
  obtain ⟨p, htext, hworth⟩ := exists_plainNumber_entryText hv
  have hread : Expr.ofText (Session.operandText v) = .ok p.expr := by
    unfold Session.operandText
    split
    · have hgroup : "(" ++ entryText v ++ ")" = String.ofList ('(' :: p.text ++ [')']) := by
        rw [htext, ← String.toList_inj]
        simp
      rw [hgroup, p.exprOfText_parenthesized]
    · rw [htext, p.exprOfText_text]
  exact evaluateText_of_fold hread hworth (isFinite_ite_zero hv)

/-- The text that stands for a number that is not finite is its name. -/
theorem operandText_of_not_finite (hv : v.isFinite = false) :
    Session.operandText v = if v.isNaN then "NaN" else if v < 0 then "(-inf)" else "inf" := by
  have hzero : (v == 0) = false := by
    cases hbeq : v == 0 with
    | false => rfl
    | true =>
        rw [Double.isFinite_of_beq_zero hbeq] at hv
        cases hv
  have htext : entryText v = nonFiniteText v := by
    simp [entryText, hzero, hv]
  rw [Session.operandText, htext, nonFiniteText]
  cases hundefined : v.isNaN with
  | true => simp [Double.not_lt_zero_of_isNaN hundefined]
  | false =>
      have hsign := Double.lt_zero_iff_isNegative hundefined hzero
      by_cases hlt : v < 0
      · simp [hlt, hsign.1 hlt]
      · simp [hlt, mt hsign.2 hlt]

/-- The name of a number that is not finite writes no expression. -/
theorem exists_lexical_operandText (hv : v.isFinite = false) :
    ∃ e, Expr.ofText (Session.operandText v) = .error (.lexical e) := by
  obtain ⟨hundefined, hnegative, hpositive⟩ :
      Expr.ofText "NaN" = .error (.lexical ⟨0, 'N'⟩) ∧
        Expr.ofText "(-inf)" = .error (.lexical ⟨2, 'i'⟩) ∧
        Expr.ofText "inf" = .error (.lexical ⟨0, 'i'⟩) := by
    decide +kernel
  rw [operandText_of_not_finite hv]
  split
  · exact ⟨_, hundefined⟩
  split
  · exact ⟨_, hnegative⟩
  · exact ⟨_, hpositive⟩

/-- A finite number without the sign of zero is equal to the number. -/
theorem ite_zero_beq (hv : v.isFinite) : ((if v == 0 then 0 else v) == v) = true := by
  split
  · rename_i hzero
    exact BEq.symm hzero
  · refine Float.beq_self_iff.2 ?_
    rintro rfl
    revert hv
    decide +kernel

end Number

namespace Session

/-- **An empty entry is worth the memory after recalling it exactly if the memory is finite.**  This
holds in every session that allows input, however its register was built.  If the register has left
the finite range, what is inserted is the name of an infinity or of the undefined value; it writes
no expression, and the entry has no value. -/
theorem recall_gives_back_iff {s : Session} (hentry : s.entry = "") (hinput : s.inputAllowed) :
    let v := s.memory.value
    ((∃ w, s.memoryRecall.currentValue = some w ∧ w == v) ↔ v.isFinite) ∧
      (v.isFinite = false →
        s.memoryRecall.entry = (if v.isNaN then "NaN" else if v < 0 then "(-inf)" else "inf") ∧
        (∃ e, Expr.ofText s.memoryRecall.entry = .error (.lexical e)) ∧
        s.memoryRecall.currentValue = none) := by
  intro v
  have htext : s.memoryRecall.entry = operandText v := by
    simp [memoryRecall, insert, hinput, hentry, entryChanged, v]
  rw [currentValue, htext]
  cases hfinite : v.isFinite with
  | true =>
      rw [evaluateText_operandText hfinite]
      refine ⟨iff_of_true ⟨_, rfl, ite_zero_beq hfinite⟩ rfl, ?_⟩
      intro h
      cases h
  | false =>
      obtain ⟨e, he⟩ := exists_lexical_operandText hfinite
      have hnone : (evaluateText (operandText v)).toOption = none := by
        rw [evaluateText, he]
        rfl
      refine ⟨iff_of_false ?_ Bool.false_ne_true, fun _ =>
        ⟨operandText_of_not_finite hfinite, ⟨e, he⟩, hnone⟩⟩
      rw [hnone]
      rintro ⟨w, hw, -⟩
      cases hw

/-- Two thirds are taken away from the empty memory and recalled, in parentheses. -/
theorem recall_gives_back_iff_two_thirds :
    let s := (new {} false).run [.type "2/3", .memorySubtract, .clear]
    let v := s.memory.value
    s.entry = "" ∧ s.inputAllowed ∧ s.memoryRecall.entry = "(-0.6666666666666666)" ∧
      ((∃ w, s.memoryRecall.currentValue = some w ∧ w == v) ↔ v.isFinite) ∧
      (v.isFinite = false →
        s.memoryRecall.entry = (if v.isNaN then "NaN" else if v < 0 then "(-inf)" else "inf") ∧
        (∃ e, Expr.ofText s.memoryRecall.entry = .error (.lexical e)) ∧
        s.memoryRecall.currentValue = none) := by
  intro s v
  obtain ⟨hentry, hinput, htext⟩ :
      s.entry = "" ∧ s.inputAllowed ∧ s.memoryRecall.entry = "(-0.6666666666666666)" := by
    decide +kernel
  exact ⟨hentry, hinput, htext, recall_gives_back_iff hentry hinput⟩

/-- A number with three hundred and nine digits is added twice, and the sum overflows: what is
recalled then is no expression and has no value. -/
theorem recall_of_overflow :
    let s := (new {} false).run
      [.type "10²²²²²²²²*10²²²²²*10²²²²*10²²", .memoryAdd, .memoryAdd, .clear]
    s.entry = "" ∧ s.inputAllowed ∧ s.memoryRecall.entry = "inf" ∧
      ¬ ∃ w, s.memoryRecall.currentValue = some w ∧ w == s.memory.value := by
  intro s
  obtain ⟨hentry, hinput, htext, hnone⟩ :
      s.entry = "" ∧ s.inputAllowed ∧ s.memoryRecall.entry = "inf" ∧
        s.memoryRecall.currentValue = none := by
    decide +kernel
  refine ⟨hentry, hinput, htext, ?_⟩
  rintro ⟨w, hw, -⟩
  rw [hnone] at hw
  cases hw

end Session

end Calculator
