/-
**The history is a log of successes.**

Read back from its end to the last time that the history was cleared, the past of a session holds a
list of calculations that succeeded, with no bound on its length.  The history shows the latest of
them, as many as its capacity is.  Nothing is lost, repeated or taken out of order, wherever the
calculations were evaluated: one in the program is logged when it is wished for, one by the service
when its outcome is collected, and it is logged even if the history has been cleared in between.

Dropping the oldest at every insertion is the same as cutting the whole list once: what has dropped
out never comes back.  So all that has to be known about an action is whether it adds one success,
clears the history or leaves it alone.

Main definitions

* `Calculator.Moment.success?`, `Calculator.successes` — the calculation that an action ends with a
  value, and those of a past since the history was cleared;
* `Calculator.lastStarted` — the expression of the calculation that started last;
* `Calculator.Session.Logs` — the invariant.

Main results

* `Calculator.Session.history_step_of_success`, `Calculator.Session.history_step_of_none` — what an
  action does to the history;
* `Calculator.Session.ended_expression` — a calculation that ends is the one that started last;
* `Calculator.Session.history_logs_successes` — the history is the bounded log of successes.
-/

import Calculator.Proofs.FailedEntry

set_option autoImplicit false

namespace Calculator

/-! ### Successes -/

namespace Moment

/-- The calculation that the action ends with a value: its expression and the value. -/
def success? (m : Moment) : Option (String × Float) :=
  m.ended?.bind fun (expression, r) => r.toOption.map fun v => (expression, v)

/-- Whether the history is cleared. -/
def clearsHistory (m : Moment) : Bool :=
  match m.action with
  | .clearHistory => true
  | _ => false

theorem clearsHistory_of_ne {s : Session} {a : Action} (h : a ≠ .clearHistory) :
    (⟨s, a⟩ : Moment).clearsHistory = false := by
  cases a <;> first | rfl | exact absurd rfl h

theorem success?_eq_some {m : Moment} {expression : String} {v : Float} :
    m.success? = some (expression, v) ↔ m.ended? = some (expression, .ok v) := by
  unfold success?
  cases m.ended? with
  | none => simp
  | some outcome =>
      obtain ⟨x, r⟩ := outcome
      cases r <;> simp [Except.toOption]

end Moment

/-- The calculations that have ended with a value since the history was cleared, the most recent
first. -/
def successes (past : List Moment) : List (String × Float) :=
  (past.reverse.takeWhile fun m => !m.clearsHistory).filterMap Moment.success?

/-- The expression of the calculation that started last. -/
def lastStarted (past : List Moment) : Option String :=
  ((past.filter Moment.starts).getLast?).map fun m => trim m.session.entry

section Past

variable (past : List Moment) {m : Moment}

theorem successes_of_clears (h : m.clearsHistory = true) : successes (past ++ [m]) = [] := by
  simp [successes, h]

theorem successes_of_some {x : String × Float} (hclears : m.clearsHistory = false)
    (h : m.success? = some x) : successes (past ++ [m]) = x :: successes past := by
  simp [successes, hclears, h]

theorem successes_of_none (hclears : m.clearsHistory = false) (h : m.success? = none) :
    successes (past ++ [m]) = successes past := by
  simp [successes, hclears, h]

theorem lastStarted_of_starts (h : m.starts = true) :
    lastStarted (past ++ [m]) = some (trim m.session.entry) := by
  simp [lastStarted, h]

theorem lastStarted_append (h : m.starts = false) :
    lastStarted (past ++ [m]) = lastStarted past := by
  simp [lastStarted, h]

end Past

namespace Session

variable {s : Session} {a : Action} {past : List Moment}

/-! ### What an action does to the history -/

@[simp] theorem history_insert (s : Session) (text : String) :
    (s.insert text).history = s.history := by
  unfold insert
  split <;> rfl

@[simp] theorem history_eraseLast (s : Session) : s.eraseLast.history = s.history := by
  simp only [eraseLast, entryChanged]
  split <;> rfl

/-- A result that is put back into the entry stays in its place. -/
@[simp] theorem history_load (s : Session) (index : Nat) :
    (s.load index).history = s.history := by
  unfold load
  split
  · rfl
  split <;> rfl

@[simp] theorem history_answer (s : Session) (b : Answer) :
    (s.answer b).1.history = s.history := by
  unfold answer
  split <;> rfl

/-- A success goes in front of the history. -/
theorem history_step_of_success {expression : String} {v : Float}
    (h : (⟨s, a⟩ : Moment).success? = some (expression, v)) :
    (s.step a).1.history = s.history.add ⟨expression, v, s.timeOfDay⟩ := by
  obtain ⟨preview, hstep⟩ := step_of_ended (Moment.success?_eq_some.1 h)
  rw [hstep]
  rfl

/-- Where no calculation ends, nothing but clearing touches the history. -/
theorem history_step_of_not_ended (ha : a ≠ .clearHistory)
    (h : (⟨s, a⟩ : Moment).ended? = none) : (s.step a).1.history = s.history := by
  cases a with
  | insert text => exact history_insert s text
  | memoryRecall => exact history_insert s _
  | eraseLast => exact history_eraseLast s
  | load index => exact history_load s index
  | answer b => exact history_answer s b
  | clearHistory => exact absurd rfl ha
  | calculate =>
      change s.calculate.1.history = s.history
      cases s.calculates with
      | refused _ hs => rw [hs]
      | ended hinput _ hs => simp [Moment.ended?, hinput, hs] at h
      | asked _ _ _ _ hs => rw [hs]
  | poll =>
      change s.poll.1.history = s.history
      rw [poll_of_not_ended h]
      rfl
  | type | focus | clear | reset | memoryAdd | memorySubtract | memoryClear | clock
  | timeOfDay => rfl

/-- Without a success, nothing but clearing touches the history. -/
theorem history_step_of_none (ha : a ≠ .clearHistory) (h : (⟨s, a⟩ : Moment).success? = none) :
    (s.step a).1.history = s.history := by
  cases hended : (⟨s, a⟩ : Moment).ended? with
  | none => exact history_step_of_not_ended ha hended
  | some outcome =>
      obtain ⟨expression, r⟩ := outcome
      cases r with
      | ok v => cases h.symm.trans (Moment.success?_eq_some.2 hended)
      | error e =>
          obtain ⟨preview, hstep⟩ := step_of_ended hended
          rw [hstep]
          rfl

/-! ### The calculation that ends is the one that started -/

/-- The request under way is that of the calculation that started last. -/
def AsksLastStarted (past : List Moment) (s : Session) : Prop :=
  ∀ r, s.request = some r → lastStarted past = some r.expression

theorem AsksLastStarted.calculate (h : s.AsksLastStarted past) :
    s.calculate.1.AsksLastStarted (past ++ [⟨s, .calculate⟩]) := by
  cases s.calculates with
  | refused hinput hs =>
      rw [hs]
      intro r hr
      rw [lastStarted_append past (m := ⟨s, .calculate⟩) hinput]
      exact h r hr
  | ended hinput _ hs =>
      rw [hs]
      intro r hr
      rw [request_finish, (s.inputAllowed_iff.1 hinput).1] at hr
      cases hr
  | asked hinput _ _ _ hs =>
      rw [hs]
      intro r hr
      obtain rfl := Option.some.inj hr
      exact lastStarted_of_starts past (m := ⟨s, .calculate⟩) hinput

theorem asksLastStarted_step (h : s.AsksLastStarted past) (a : Action) :
    (s.step a).1.AsksLastStarted (past ++ [⟨s, a⟩]) := by
  by_cases hcalculate : a = .calculate
  · subst hcalculate
    exact h.calculate
  intro r hr
  rw [lastStarted_append past (Moment.starts_of_ne hcalculate)]
  cases hrequest : s.request with
  | none =>
      cases (request_step_of_none hrequest (Moment.handsOver_of_ne hcalculate)).symm.trans hr
  | some q =>
      cases hcollects : (⟨s, a⟩ : Moment).collects with
      | true => cases (of_collects hcollects).2.2.symm.trans hr
      | false =>
          obtain ⟨q', hq', hcontinues⟩ := request_step_of_some hrequest hcollects
          obtain rfl : q' = r := Option.some.inj (hq'.symm.trans hr)
          rw [hcontinues.expression]
          exact h q hrequest

theorem asksLastStarted_run (settings : Settings) (hasService : Bool) (actions : List Action) :
    ((new settings hasService).run actions).AsksLastStarted
      ((new settings hasService).trace actions) := by
  have hnew : (new settings hasService).AsksLastStarted [] := by
    intro r hr
    cases hr
  exact trace_induction (P := AsksLastStarted) (fun _ _ a h => asksLastStarted_step h a) hnew
    actions

/-- A calculation that ends is the one that started last, be it by the same action. -/
theorem ended_expression (h : s.AsksLastStarted past) {expression : String}
    {r : Except Failure Float} (hended : (⟨s, a⟩ : Moment).ended? = some (expression, r)) :
    lastStarted (past ++ [⟨s, a⟩]) = some expression := by
  cases a with
  | calculate =>
      simp only [Moment.ended?] at hended
      split at hended
      · rename_i hinput
        obtain ⟨rfl, -⟩ := Prod.mk.inj (Option.some.inj hended)
        exact lastStarted_of_starts past (m := ⟨s, .calculate⟩) (Bool.and_eq_true_iff.1 hinput).1
      · cases hended
  | poll =>
      simp only [Moment.ended?, Option.bind_eq_some_iff, Option.map_eq_some_iff] at hended
      obtain ⟨q, hq, reply, -, heq⟩ := hended
      cases heq
      rw [lastStarted_append past rfl]
      exact h q hq
  | _ => simp [Moment.ended?] at hended

/-! ### The log -/

/-- The history is the log of successes, cut at its capacity. -/
structure Logs (limit : Nat) (past : List Moment) (s : Session) : Prop where
  capacity : s.history.capacity = limit
  results : s.history.results = (successes past).take limit

/-- Dropping the oldest at an insertion is cutting the longer list. -/
theorem Logs.add {limit : Nat} (h : s.Logs limit past) (item : HistoryItem) :
    (s.history.add item).results =
      ((item.expression, item.result) :: successes past).take limit := by
  rw [History.results_add, h.capacity, h.results]
  cases limit with
  | zero => rfl
  | succ n => simp [List.take_take]

/-- Every action keeps the history with the log. -/
theorem logs_step {limit : Nat} (h : s.Logs limit past) (a : Action) :
    (s.step a).1.Logs limit (past ++ [⟨s, a⟩]) := by
  by_cases hclear : a = .clearHistory
  · subst hclear
    refine ⟨h.capacity, ?_⟩
    rw [successes_of_clears past rfl, List.take_nil]
    rfl
  have hclears : (⟨s, a⟩ : Moment).clearsHistory = false := Moment.clearsHistory_of_ne hclear
  cases hsuccess : (⟨s, a⟩ : Moment).success? with
  | none =>
      have hhistory := history_step_of_none hclear hsuccess
      refine ⟨by rw [hhistory, h.capacity], ?_⟩
      rw [hhistory, successes_of_none past hclears hsuccess]
      exact h.results
  | some success =>
      have hhistory := history_step_of_success hsuccess
      refine ⟨by rw [hhistory, History.capacity_add, h.capacity], ?_⟩
      rw [hhistory, successes_of_some past hclears hsuccess]
      exact h.add _

theorem logs_run (settings : Settings) (hasService : Bool) (actions : List Action) :
    ((new settings hasService).run actions).Logs (max 1 settings.historyCapacity)
      ((new settings hasService).trace actions) := by
  have hnew : (new settings hasService).Logs (max 1 settings.historyCapacity) [] :=
    ⟨rfl, List.take_nil.symm⟩
  exact trace_induction (P := Logs _) (fun _ _ a h => logs_step h a) hnew actions

/-- **The history is the bounded log of successes.**  In every session, wherever its expressions are
evaluated, the history lists the latest of the calculations that have ended with a value since it
was cleared, the most recent first, as many as the settings ask for and at least one.  A calculation
that ends is the one that started last, and is known by the entry at that time without the blanks at
its ends.  No action but clearing touches the history unless it ends a calculation with a value. -/
theorem history_logs_successes (settings : Settings) (hasService : Bool) (actions : List Action) :
    let s := (new settings hasService).run actions
    let past := (new settings hasService).trace actions
    s.history.results = (successes past).take (max 1 settings.historyCapacity) ∧
    (∀ a expression r, (⟨s, a⟩ : Moment).ended? = some (expression, r) →
      lastStarted (past ++ [⟨s, a⟩]) = some expression) ∧
    ∀ a, a ≠ .clearHistory → (⟨s, a⟩ : Moment).success? = none →
      (s.step a).1.history = s.history := by
  intro s past
  have hlogs : s.Logs (max 1 settings.historyCapacity) past :=
    logs_run settings hasService actions
  have hasks : s.AsksLastStarted past := asksLastStarted_run settings hasService actions
  exact ⟨hlogs.results, fun _ _ _ hended => ended_expression hasks hended,
    fun _ ha hsuccess => history_step_of_none ha hsuccess⟩

-- cleared before an outcome, then four calculations, one of which fails, for two places
example :
    let outside : List Action := [.calculate, .answer .lost, .poll]
    let s := (new { mode := .serviceOrBuiltIn, historyCapacity := 2 } true).run
      ([.timeOfDay "11:59:59", .type "1+1", .calculate, .clearHistory, .answer .lost, .poll] ++
        [.type " 2+3"] ++ outside ++
        [.timeOfDay "12:00:00", .type "4+", .calculate, .clear, .type "5%"] ++ outside)
    (s.history.items.map fun item => (item.expression, item.time)) =
      [("5%", "12:00:00"), ("2+3", "11:59:59")] := by decide +kernel

end Session

end Calculator
