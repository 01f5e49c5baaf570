/-
**The history can be calculated again.**

A line of the history says that an expression has a result.  Where the program evaluates for itself,
this stays true for good: what is logged is the expression as it was evaluated, not the entry with
its blanks, and it is logged before the result takes the place of the entry.  So an expression that
is put back into the entry and calculated gives the result of its line once more, whatever has
happened in between, a failure that still stood included.

Nothing of this depends on when a line was logged.  The invariant speaks of the lines one by one, so
that new lines, lines that drop out and a history that is cleared are all alike to it.

Main definitions

* `Calculator.HistoryItem.Recalculates` — a line that is true, its expression being trimmed;
* `Calculator.Session.KeepsTrueHistory` — the invariant.

Main results

* `Calculator.Session.keepsTrueHistory_step` — every action keeps it;
* `Calculator.Session.calculate_load` — a true line that is put back and calculated gives its
  result;
* `Calculator.Session.history_recalculates` — so does every line of every session that evaluates in
  the program.
-/

import Calculator.Proofs.HistoryLog
import Calculator.Proofs.Trimming

set_option autoImplicit false

namespace Calculator

/-! ### True lines -/

/-- The value of a text is finite. -/
theorem isFinite_of_evaluateText {text : String} {v : Float} (h : evaluateText text = .ok v) :
    v.isFinite := by
  obtain ⟨e, -, hv⟩ := evaluateText_eq_ok.1 h
  exact Expr.isFinite_of_evaluate hv

/-- The result is the value of the expression, which has no blanks at its ends. -/
structure HistoryItem.Recalculates (item : HistoryItem) : Prop where
  value : evaluateText item.expression = .ok item.result
  trimmed : trim item.expression = item.expression

namespace Session

variable {s : Session} {a : Action}

/-! ### The invariant -/

/-- The session evaluates in the program, nobody has been asked, and every line of the history is
true. -/
structure KeepsTrueHistory (s : Session) : Prop where
  mode : s.mode = .builtIn
  request : s.request = none
  items : ∀ item ∈ s.history.items, item.Recalculates

/-- Nobody is asked where the session evaluates in the program. -/
theorem handsOver_of_builtIn (hmode : s.mode = .builtIn) (a : Action) :
    (⟨s, a⟩ : Moment).handsOver = false := by
  rw [Bool.eq_false_iff]
  intro hhands
  obtain ⟨rfl, -, -⟩ := of_handsOver hhands
  rw [Moment.handsOver_calculate, Option.isSome_iff_exists] at hhands
  obtain ⟨text, htext⟩ := hhands
  obtain ⟨-, hasks, -⟩ := calculate_snd_eq_some.1 htext
  simp [asksService, hmode] at hasks

/-- What ends with a value where nobody has been asked is the calculation of the entry. -/
theorem evaluateText_of_success (hrequest : s.request = none) {expression : String} {v : Float}
    (h : (⟨s, a⟩ : Moment).success? = some (expression, v)) :
    expression = trim s.entry ∧ evaluateText expression = .ok v := by
  have hended := Moment.success?_eq_some.1 h
  cases a with
  | calculate =>
      simp only [Moment.ended?] at hended
      split at hended
      · obtain ⟨rfl, hvalue⟩ := Prod.mk.inj (Option.some.inj hended)
        exact ⟨rfl, hvalue⟩
      · cases hended
  | poll => simp [Moment.ended?, hrequest] at hended
  | _ => simp [Moment.ended?] at hended

/-- Every action keeps the lines of the history true. -/
theorem keepsTrueHistory_step (s : Session) (a : Action) (h : s.KeepsTrueHistory) :
    (s.step a).1.KeepsTrueHistory := by
  refine ⟨(mode_step s a).trans h.mode,
    request_step_of_none h.request (handsOver_of_builtIn h.mode a), ?_⟩
  by_cases hclear : a = .clearHistory
  · subst hclear
    intro item hitem
    cases hitem
  cases hsuccess : (⟨s, a⟩ : Moment).success? with
  | none =>
      rw [history_step_of_none hclear hsuccess]
      exact h.items
  | some success =>
      obtain ⟨expression, v⟩ := success
      obtain ⟨rfl, hvalue⟩ := evaluateText_of_success h.request hsuccess
      rw [history_step_of_success hsuccess]
      intro item hitem
      rcases List.mem_cons.1 (List.mem_of_mem_take hitem) with rfl | hitem
      · exact ⟨hvalue, trim_trim s.entry⟩
      · exact h.items item hitem

theorem keepsTrueHistory_run {settings : Settings} (hmode : settings.mode = .builtIn)
    (hasService : Bool) (actions : List Action) :
    ((new settings hasService).run actions).KeepsTrueHistory := by
  have hnew : (new settings hasService).KeepsTrueHistory := by
    refine ⟨hmode, rfl, ?_⟩
    intro item hitem
    cases hitem
  exact run_induction keepsTrueHistory_step hnew actions

/-! ### Calculating again -/

/-- A true line that is put back and calculated gives its result. -/
theorem calculate_load (hmode : s.mode = .builtIn) (hrequest : s.request = none) {index : Nat}
    {item : HistoryItem} (hitem : s.history.get? index = some item) (h : item.Recalculates) :
    (s.load index).Succeeds (s.load index).calculate.1 item.expression item.result := by
  obtain ⟨hentry, hidle, hfailure⟩ := load_of_get? hrequest hitem
  have hmode' : (s.load index).mode = .builtIn := (mode_step s (.load index)).trans hmode
  cases (s.load index).calculates with
  | refused hinput _ => simp [inputAllowed, hidle, hfailure] at hinput
  | asked _ hasks _ _ _ => simp [asksService, hmode'] at hasks
  | ended _ _ hs =>
      rw [hs, hentry, h.trimmed, h.value]
      exact ⟨rfl, History.head?_items_add _ _, rfl, rfl, rfl⟩

/-- **The history is true and can be calculated again.**  In every session that evaluates in the
program, every line of the history has the value of its expression as its result; this is finite,
and the expression has no blanks at its ends.  Put back into the entry and calculated, a line gives
its result again, even if a failure was standing. -/
theorem history_recalculates (settings : Settings) (hmode : settings.mode = .builtIn)
    (hasService : Bool) (actions : List Action) :
    let s := (new settings hasService).run actions
    (∀ item ∈ s.history.items, evaluateText item.expression = .ok item.result ∧
      item.result.isFinite ∧ trim item.expression = item.expression) ∧
    ∀ index, index < s.history.size → ∃ item, s.history.get? index = some item ∧
      (s.load index).Succeeds (s.run [.load index, .calculate]) item.expression item.result := by
  intro s
  have htrue : s.KeepsTrueHistory := keepsTrueHistory_run hmode hasService actions
  constructor
  · intro item hitem
    obtain ⟨hvalue, htrimmed⟩ := htrue.items item hitem
    exact ⟨hvalue, isFinite_of_evaluateText hvalue, htrimmed⟩
  · intro index hindex
    have hitem : s.history.get? index = some s.history.items[index] :=
      List.getElem?_eq_getElem hindex
    have hline := htrue.items _ (List.getElem_mem hindex)
    exact ⟨_, hitem, calculate_load htrue.mode htrue.request hitem hline⟩

/-- A division is refused after a sum has been logged, and the sum is put back. -/
theorem history_recalculates_sum :
    let actions : List Action := [.type " 1+1 ", .calculate, .type "1÷0", .calculate]
    let s := (new { mode := .builtIn } false).run actions
    s.failure = some (.arithmetic .divisionByZero) ∧ 0 < s.history.size ∧
      (s.run [.load 0, .calculate]).result = some 2 ∧
      ∃ item, s.history.get? 0 = some item ∧
        (s.load 0).Succeeds (s.run [.load 0, .calculate]) item.expression item.result := by
  intro actions s
  have hfailure : s.failure = some (.arithmetic .divisionByZero) := by decide +kernel
  have hsize : 0 < s.history.size := by decide +kernel
  have hresult : (s.run [.load 0, .calculate]).result = some 2 := by decide +kernel
  exact ⟨hfailure, hsize, hresult, (history_recalculates _ rfl false actions).2 0 hsize⟩

end Session

end Calculator
