/-
**A failure and the entry that failed.**

A failure leaves the entry alone, and while it stands the entry cannot be edited.  So the entry next
to a failure should be the expression that failed.  For a calculation in the program itself it is.
A calculation by the service may fail long after it was started, and between the two the clear key
works: it empties the entry and leaves the request.  The failure that arrives then stands next to an
empty entry.

The statement needs the past of a session: which calculation ended last, and whether the entry has
been cleared since the last one started.  The invariant ties both to the entry, for the request
under way as for the failure that stands.

Main definitions

* `Calculator.Moment.ended?`, `Calculator.lastEnded` — the calculation that an action ends, and the
  last one of a past;
* `Calculator.Moment.clearsUnderWay`, `Calculator.clearedUnderWay` — when the entry is cleared below
  a request;
* `Calculator.Session.KeepsExpression` — the invariant.

Main results

* `Calculator.Session.step_of_ended` — what the end of a calculation leaves;
* `Calculator.Session.keepsExpression_step` — every action keeps it, typing over a locked entry
  aside;
* `Calculator.Session.failure_keeps_expression_iff` — the entry next to a failure is the expression
  that failed, exactly if it has not been cleared below the request.
-/

import Calculator.Proofs.Requests
import Mathlib.Control.Monad.Basic

set_option autoImplicit false

namespace Calculator

/-! ### The past of a session -/

namespace Moment

/-- The calculation that the action ends, if it ends one: the expression, and its value or why it
has none. -/
def ended? (m : Moment) : Option (String × Except Failure Float) :=
  match m.action with
  | .calculate =>
      if m.session.inputAllowed && m.session.calculate.2.isNone then
        some (trim m.session.entry, evaluateText (trim m.session.entry))
      else none
  | .poll =>
      m.session.request.bind fun r => r.answer.reply?.map fun reply =>
        (r.expression, Session.outcome m.session.mode r.tree reply)
  | _ => none

/-- Whether a calculation starts. -/
def starts (m : Moment) : Bool :=
  match m.action with
  | .calculate => m.session.inputAllowed
  | _ => false

/-- Whether the entry is cleared while a request is under way. -/
def clearsUnderWay (m : Moment) : Bool :=
  match m.action with
  | .clear => m.session.request.isSome
  | .reset => m.session.request.isSome
  | _ => false

/-- Whether the entry is typed over while input is refused, which the entry field prevents. -/
def typesLocked (m : Moment) : Bool :=
  match m.action with
  | .type _ => !m.session.inputAllowed
  | _ => false

theorem starts_of_ne {s : Session} {a : Action} (h : a ≠ .calculate) :
    (⟨s, a⟩ : Moment).starts = false := by
  cases a <;> first | rfl | exact absurd rfl h

end Moment

/-- The calculation that ended last. -/
def lastEnded (past : List Moment) : Option (String × Except Failure Float) :=
  (past.filterMap Moment.ended?).getLast?

/-- Whether the entry has been cleared below a request since the last calculation started. -/
def clearedUnderWay (past : List Moment) : Bool :=
  past.foldl (fun cleared m => if m.starts then false else cleared || m.clearsUnderWay) false

section Past

variable (past : List Moment) {m : Moment}

theorem lastEnded_of_none (h : m.ended? = none) : lastEnded (past ++ [m]) = lastEnded past := by
  simp [lastEnded, List.filterMap_append, h]

theorem lastEnded_of_some {x : String × Except Failure Float} (h : m.ended? = some x) :
    lastEnded (past ++ [m]) = some x := by
  simp [lastEnded, List.filterMap_append, h]

theorem clearedUnderWay_of_starts (h : m.starts = true) :
    clearedUnderWay (past ++ [m]) = false := by
  simp [clearedUnderWay, h]

theorem clearedUnderWay_append (h : m.starts = false) :
    clearedUnderWay (past ++ [m]) = (clearedUnderWay past || m.clearsUnderWay) := by
  simp [clearedUnderWay, h]

end Past

/-! ### The invariant -/

/-- The entry is the expression, or it has been cleared and the expression is not empty. -/
def Stands (cleared : Bool) (entry expression : String) : Prop :=
  if cleared then entry = "" ∧ expression ≠ "" else trim entry = expression

theorem stands_iff {cleared : Bool} {entry expression : String}
    (h : Stands cleared entry expression) : trim entry = expression ↔ cleared = false := by
  cases cleared with
  | false => exact iff_of_true h rfl
  | true =>
      obtain ⟨rfl, hne⟩ := h
      have htrim : trim "" = "" := by decide +kernel
      rw [htrim]
      exact iff_of_false (Ne.symm hne) (by simp)

/-- An expression that can be read is not empty. -/
theorem ne_empty_of_ofText {s : String} {e : Expr} (h : Expr.ofText s = .ok e) : s ≠ "" := by
  rintro rfl
  simp [Expr.ofText, Token.ofText] at h

namespace Session

variable {s s' : Session} {a : Action} {past : List Moment}

/-- The action that ends a calculation leaves its outcome, without the request and with what the
preview has done by then. -/
theorem step_of_ended {expression : String} {r : Except Failure Float}
    (h : (⟨s, a⟩ : Moment).ended? = some (expression, r)) :
    ∃ preview, (s.step a).1 = { s with preview, request := none }.finish expression r := by
  cases a with
  | calculate =>
      simp only [Moment.ended?] at h
      cases s.calculates with
      | refused hinput _ => simp [hinput] at h
      | ended hinput _ hs =>
          simp only [hinput, hs, Option.isNone_none, Bool.and_self, if_true, Option.some.injEq,
            Prod.mk.injEq] at h
          obtain ⟨rfl, rfl⟩ := h
          refine ⟨s.preview, ?_⟩
          rw [← (s.inputAllowed_iff.1 hinput).1]
          exact congrArg Prod.fst hs
      | asked _ _ _ _ hs => simp [hs] at h
  | poll =>
      simp only [Moment.ended?, Option.bind_eq_some_iff, Option.map_eq_some_iff] at h
      obtain ⟨q, hq, reply, hreply, heq⟩ := h
      cases heq
      exact ⟨_, (poll_of_reply hq hreply).1⟩
  | _ => simp [Moment.ended?] at h

/-- A poll that ends no calculation does no more than the preview had planned. -/
theorem poll_of_not_ended (h : (⟨s, .poll⟩ : Moment).ended? = none) : s.poll.1 = s.previewed := by
  rw [poll_fst]
  cases s.previewed.collects with
  | nothing _ hs => rw [hs]
  | ended r reply hr hreply _ =>
      have hr' : s.request = some r := hr
      simp [Moment.ended?, hr', hreply] at h

/-- The entry belongs to the request under way, and to the failure that stands. -/
structure KeepsExpression (past : List Moment) (s : Session) : Prop where
  request : ∀ r, s.request = some r → s.failure = none ∧ Expr.ofText r.expression = .ok r.tree ∧
    Stands (clearedUnderWay past) s.entry r.expression
  failure : ∀ f, s.failure = some f → s.request = none ∧
    ∃ x, lastEnded past = some (x, .error f) ∧ Stands (clearedUnderWay past) s.entry x

/-- Where input is allowed there is nothing that the entry has to belong to. -/
theorem keepsExpression_of_inputAllowed (h : s.inputAllowed = true) (past : List Moment) :
    s.KeepsExpression past := by
  obtain ⟨hrequest, hfailure⟩ := s.inputAllowed_iff.1 h
  exact ⟨fun r hr => by simp [hrequest] at hr, fun f hf => by simp [hfailure] at hf⟩

/-- What leaves the entry, the request and the failure alone keeps the invariant, if it neither
starts, ends nor spoils a calculation. -/
theorem KeepsExpression.of_same (h : s.KeepsExpression past) {m : Moment}
    (hended : m.ended? = none) (hstarts : m.starts = false) (hclears : m.clearsUnderWay = false)
    (hentry : s'.entry = s.entry) (hrequest : s'.request = s.request)
    (hfailure : s'.failure = s.failure) : s'.KeepsExpression (past ++ [m]) := by
  have hcleared : clearedUnderWay (past ++ [m]) = clearedUnderWay past := by
    rw [clearedUnderWay_append past hstarts, hclears, Bool.or_false]
  constructor
  · rw [hrequest, hfailure, hentry, hcleared]
    exact h.request
  · rw [hrequest, hfailure, hentry, hcleared, lastEnded_of_none past hended]
    exact h.failure

/-- Clearing below a request is remembered. -/
theorem KeepsExpression.of_cleared (h : s.KeepsExpression past) {m : Moment}
    (hstarts : m.starts = false) (hclears : m.clearsUnderWay = s.request.isSome)
    (hentry : s'.entry = "") (hrequest : s'.request = s.request) (hfailure : s'.failure = none) :
    s'.KeepsExpression (past ++ [m]) := by
  constructor
  · intro r hr
    have hr' : s.request = some r := hrequest ▸ hr
    obtain ⟨-, htree, -⟩ := h.request r hr'
    refine ⟨hfailure, htree, ?_⟩
    rw [clearedUnderWay_append past hstarts, hclears, hr', Option.isSome_some, Bool.or_true]
    exact ⟨hentry, ne_empty_of_ofText htree⟩
  · intro f hf
    simp [hfailure] at hf

/-- A calculation that ends puts its own failure next to the entry, or none. -/
theorem KeepsExpression.of_finish {expression : String} {r : Except Failure Float} {m : Moment}
    (hended : m.ended? = some (expression, r)) (hrequest : s.request = none)
    (hstands : Stands (clearedUnderWay (past ++ [m])) s.entry expression) :
    (s.finish expression r).KeepsExpression (past ++ [m]) := by
  have hnone : (s.finish expression r).request = none := by rw [request_finish, hrequest]
  constructor
  · intro r' hr'
    cases hnone.symm.trans hr'
  · intro f hf
    refine ⟨hnone, ?_⟩
    cases r with
    | ok v => cases hf
    | error e =>
        obtain rfl : e = f := Option.some.inj hf
        exact ⟨expression, lastEnded_of_some past hended, hstands⟩

theorem KeepsExpression.calculate (h : s.KeepsExpression past) :
    s.calculate.1.KeepsExpression (past ++ [⟨s, .calculate⟩]) := by
  cases s.calculates with
  | refused hinput hs =>
      rw [hs]
      refine h.of_same ?_ hinput rfl rfl rfl rfl
      simp [Moment.ended?, hinput]
  | ended hinput _ hs =>
      rw [hs]
      refine .of_finish ?_ (s.inputAllowed_iff.1 hinput).1 ?_
      · simp [Moment.ended?, hinput, hs]
      · rw [clearedUnderWay_of_starts past (m := ⟨s, .calculate⟩) hinput]
        rfl
  | asked hinput _ tree htree hs =>
      have hfailure := (s.inputAllowed_iff.1 hinput).2
      rw [hs]
      constructor
      · intro r hr
        obtain rfl := Option.some.inj hr
        refine ⟨hfailure, htree, ?_⟩
        rw [clearedUnderWay_of_starts past (m := ⟨s, .calculate⟩) hinput]
        rfl
      · intro f hf
        have hf' : s.failure = some f := hf
        simp [hfailure] at hf'

theorem KeepsExpression.poll (h : s.KeepsExpression past) :
    s.poll.1.KeepsExpression (past ++ [⟨s, .poll⟩]) := by
  rw [poll_fst]
  cases s.previewed.collects with
  | nothing hnothing hs =>
      rw [hs]
      refine h.of_same ?_ rfl rfl rfl rfl rfl
      simp only [Moment.ended?, Option.bind_eq_none_iff, Option.map_eq_none_iff]
      exact hnothing
  | ended r reply hr hreply hs =>
      have hr' : s.request = some r := hr
      rw [hs]
      refine .of_finish ?_ rfl ?_
      · simp [Moment.ended?, hr', hreply]
        rfl
      · have hcleared : clearedUnderWay (past ++ [⟨s, .poll⟩]) = clearedUnderWay past := by
          rw [clearedUnderWay_append past rfl]
          exact Bool.or_false _
        rw [hcleared]
        exact (h.request r hr').2.2

/-- An answer changes the request, but not its expression. -/
theorem KeepsExpression.answer (h : s.KeepsExpression past) (b : Answer) :
    (s.answer b).1.KeepsExpression (past ++ [⟨s, .answer b⟩]) := by
  cases hrequest : s.request with
  | none =>
      have hsame : (s.answer b).1 = s := by simp [Session.answer, hrequest]
      rw [hsame]
      exact h.of_same rfl rfl rfl rfl rfl rfl
  | some r =>
      obtain ⟨hfailure, htree, hstands⟩ := h.request r hrequest
      obtain ⟨r', hr', hcontinues⟩ := request_answer_of_some hrequest b
      have hfailure' : (s.answer b).1.failure = none := (failure_answer s b).trans hfailure
      constructor
      · intro r'' hr''
        obtain rfl : r' = r'' := Option.some.inj (hr'.symm.trans hr'')
        rw [hcontinues.expression, hcontinues.tree, entry_answer]
        refine ⟨hfailure', htree, ?_⟩
        rw [clearedUnderWay_append past rfl]
        simpa [Moment.clearsUnderWay] using hstands
      · intro f hf
        cases hfailure'.symm.trans hf

/-- Input stays allowed until a calculation starts. -/
theorem inputAllowed_step (h : s.inputAllowed = true) (ha : a ≠ .calculate) :
    (s.step a).1.inputAllowed = true := by
  obtain ⟨hrequest, hfailure⟩ := s.inputAllowed_iff.1 h
  have hrequest' : (s.step a).1.request = none :=
    request_step_of_none hrequest (Moment.handsOver_of_ne ha)
  have hfailure' : (s.step a).1.failure = none := by
    by_cases hpoll : a = .poll
    · subst hpoll
      change s.previewed.collect.1.failure = none
      have hcollect : s.previewed.collect = (s.previewed, false) :=
        collect_of_request_none hrequest
      rw [hcollect]
      exact hfailure
    · rcases failure_step ha hpoll with hsame | hnone
      · exact hsame.trans hfailure
      · exact hnone
  exact (inputAllowed_iff _).2 ⟨hrequest', hfailure'⟩

/-- Every action keeps the entry with the expression, unless it types over an entry that is
locked. -/
theorem keepsExpression_step (h : s.KeepsExpression past)
    (htypes : (⟨s, a⟩ : Moment).typesLocked = false) :
    (s.step a).1.KeepsExpression (past ++ [⟨s, a⟩]) := by
  by_cases hcalculate : a = .calculate
  · subst hcalculate
    exact h.calculate
  cases hinput : s.inputAllowed with
  | true => exact keepsExpression_of_inputAllowed (inputAllowed_step hinput hcalculate) _
  | false =>
      cases a with
      | insert text =>
          exact h.of_same rfl rfl rfl (congrArg entry (insert_of_locked hinput text))
            (request_insert s text) (failure_insert s text)
      | memoryRecall =>
          exact h.of_same rfl rfl rfl (congrArg entry (insert_of_locked hinput _))
            (request_insert s _) (failure_insert s _)
      | eraseLast =>
          exact h.of_same rfl rfl rfl (congrArg entry (eraseLast_of_locked hinput))
            (request_eraseLast s) (failure_eraseLast s)
      -- the one way to change a locked entry that the session itself does not refuse
      | type text => simp [Moment.typesLocked, hinput] at htypes
      | clear => exact h.of_cleared rfl rfl rfl rfl rfl
      | reset => exact h.of_cleared rfl rfl rfl rfl rfl
      | load index =>
          rcases load_cases s index with hload | ⟨-, hrequest, hfailure, -⟩
          · change (s.load index).KeepsExpression _
            rw [hload]
            exact h.of_same rfl rfl rfl rfl rfl rfl
          · exact keepsExpression_of_inputAllowed ((inputAllowed_iff _).2 ⟨hrequest, hfailure⟩) _
      | answer b => exact h.answer b
      | poll => exact h.poll
      | calculate => exact absurd rfl hcalculate
      | focus | memoryAdd | memorySubtract | memoryClear | clearHistory | clock | timeOfDay =>
          exact h.of_same rfl rfl rfl rfl rfl rfl

theorem keepsExpression_run (settings : Settings) (hasService : Bool) (actions : List Action)
    (htypes : ∀ m ∈ (new settings hasService).trace actions, m.typesLocked = false) :
    ((new settings hasService).run actions).KeepsExpression
      ((new settings hasService).trace actions) := by
  refine trace_induction (P := fun past s =>
    (∀ m ∈ past, m.typesLocked = false) → s.KeepsExpression past) ?_ ?_ actions htypes
  · intro past s a hpast htypes
    obtain ⟨hbefore, hlast⟩ := List.forall_mem_append.1 htypes
    exact keepsExpression_step (hpast hbefore) (hlast _ (List.mem_singleton_self _))
  · intro _
    exact keepsExpression_of_inputAllowed rfl []

/-- **The entry next to a failure is the expression that failed, exactly if it has not been cleared
below the request.**  In every session whose entry has not been typed over while input was refused,
a failure is that of the calculation that ended last; the entry without the blanks at its ends is
the expression of this calculation, unless it was cleared while the service was still to answer, and
then it is empty. -/
theorem failure_keeps_expression_iff (settings : Settings) (hasService : Bool)
    (actions : List Action)
    (htypes : ∀ m ∈ (new settings hasService).trace actions, m.typesLocked = false) :
    let s := (new settings hasService).run actions
    let past := (new settings hasService).trace actions
    ∀ f, s.failure = some f → ∃ expression, lastEnded past = some (expression, .error f) ∧
      (trim s.entry = expression ↔ clearedUnderWay past = false) ∧
      (clearedUnderWay past = true → s.entry = "") := by
  intro s past f hf
  have hkeeps : s.KeepsExpression past := keepsExpression_run settings hasService actions htypes
  obtain ⟨-, expression, hended, hstands⟩ := hkeeps.failure f hf
  refine ⟨expression, hended, stands_iff hstands, ?_⟩
  intro hcleared
  rw [hcleared] at hstands
  exact hstands.1

/-- A sum that the service refuses stays in the entry. -/
theorem failure_keeps_expression_iff_sum :
    let actions : List Action :=
      [.type " 2+2", .calculate, .answer (.arrived (.error (.status 503))), .poll]
    let s := (new { mode := .service } true).run actions
    let past := (new { mode := .service } true).trace actions
    (∀ m ∈ past, m.typesLocked = false) ∧ s.failure = some (.service (.status 503)) ∧
      ∃ expression, lastEnded past = some (expression, .error (.service (.status 503))) ∧
        (trim s.entry = expression ↔ clearedUnderWay past = false) ∧
        (clearedUnderWay past = true → s.entry = "") := by
  intro actions s past
  have htypes : ∀ m ∈ past, m.typesLocked = false := by decide +kernel
  have hfailure : s.failure = some (.service (.status 503)) := by decide +kernel
  exact ⟨htypes, hfailure, failure_keeps_expression_iff _ true actions htypes _ hfailure⟩

/-- The same sum, with the entry cleared before the service refuses it: the failure stands next to
an empty entry. -/
theorem failure_beside_cleared_entry :
    let actions : List Action :=
      [.type "2+2", .calculate, .clear, .answer (.arrived (.error (.status 503))), .poll]
    let s := (new { mode := .service } true).run actions
    let past := (new { mode := .service } true).trace actions
    (∀ m ∈ past, m.typesLocked = false) ∧ s.failure = some (.service (.status 503)) ∧
      lastEnded past = some ("2+2", .error (.service (.status 503))) ∧ trim s.entry ≠ "2+2" := by
  decide +kernel

end Session

end Calculator
