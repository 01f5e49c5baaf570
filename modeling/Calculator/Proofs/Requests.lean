/-
**One request at a time, and its own answer.**

While a request is under way almost everything else may go on: the entry is cleared or typed over,
the memory and the history change, time passes, and the wish to calculate is repeated.  None of
this reaches the request.  A second one is not started before the outcome of the first has been
collected, and what is collected is applied to the expression that was sent, not to the entry as it
is by then.

Both facts are read off what single actions do.  A wish to calculate is refused, or ends at once, or
asks the service; a poll collects an outcome or finds none; and no other action does more to a
request than bring the answer that it waits for.

Main definitions

* `Calculator.Answer.reply?` — what an answer says, a lost request included;
* `Calculator.Session.Calculates`, `Calculator.Session.Collects` — what calculating and collecting
  can do;
* `Calculator.Moment.handsOver`, `Calculator.Moment.collects` — when the service is handed a text
  and when an outcome is collected;
* `Calculator.Session.Succeeds`, `Calculator.Session.Fails` — how a calculation leaves a session.

Main results

* `Calculator.Session.request_step_of_some`, `Calculator.Session.request_step_of_none`,
  `Calculator.Session.failure_step` — what an action does to the request and to the failure;
* `Calculator.Session.one_request_at_a_time` — over every run, texts handed over and outcomes
  collected alternate, and no failure stands beside a request;
* `Calculator.Session.answer_applied_to_expression` — an answer is applied to the expression that
  was sent.
-/

import Calculator.Session.Action

set_option autoImplicit false

namespace Calculator

/-! ### Answers -/

/-- What an answer says, if there is one; a request that is lost counts as an unavailable
service. -/
def Answer.reply? : Answer → Option (Except ServiceError Float)
  | .awaited => none
  | .arrived reply => some reply
  | .lost => some (.error .unavailable)

/-- The reply that an action brings. -/
def Action.reply? : Action → Option (Except ServiceError Float)
  | .answer a => a.reply?
  | _ => none

namespace Session

/-! ### What calculating and collecting can do -/

theorem inputAllowed_iff (s : Session) :
    s.inputAllowed = true ↔ s.request = none ∧ s.failure = none := by
  simp [inputAllowed]

theorem inputAllowed_eq_false_iff (s : Session) :
    s.inputAllowed = false ↔ (s.request.isSome || s.failure.isSome) = true := by
  cases hrequest : s.request <;> cases hfailure : s.failure <;>
    simp [inputAllowed, hrequest, hfailure]

/-- What becomes of the wish to calculate. -/
inductive Calculates (s : Session) : Prop
  /-- A request is under way or a failure stands. -/
  | refused (hinput : s.inputAllowed = false) (hs : s.calculate = (s, none))
  /-- The calculation ends at once, since nobody is asked or there is nothing to ask. -/
  | ended (hinput : s.inputAllowed = true)
      (hasks : ∀ tree, Expr.ofText (trim s.entry) = .ok tree → s.asksService = false)
      (hs : s.calculate = (s.finish (trim s.entry) (evaluateText (trim s.entry)), none))
  /-- The service is asked. -/
  | asked (hinput : s.inputAllowed = true) (hasks : s.asksService = true) (tree : Expr)
      (htree : Expr.ofText (trim s.entry) = .ok tree)
      (hs : s.calculate =
        ({ s with
            preview := s.preview.cancel
            request := some { expression := trim s.entry, tree } },
          some tree.canonicalText))

theorem calculates (s : Session) : s.Calculates := by
  cases hinput : s.inputAllowed with
  | false =>
      have hbusy := s.inputAllowed_eq_false_iff.1 hinput
      exact .refused hinput (by simp only [calculate, hbusy, if_true])
  | true =>
      obtain ⟨hrequest, hfailure⟩ := s.inputAllowed_iff.1 hinput
      cases htree : Expr.ofText (trim s.entry) with
      | error e =>
          refine .ended hinput (by simp [htree]) ?_
          simp [calculate, hrequest, hfailure, htree, evaluateText_of_error htree]
      | ok tree =>
          cases hasks : s.asksService with
          | false =>
              refine .ended hinput (fun _ _ => hasks) ?_
              simp [calculate, hrequest, hfailure, htree, hasks, evaluated,
                evaluateText_of_ofText htree]
          | true =>
              refine .asked hinput hasks tree htree ?_
              simp [calculate, hrequest, hfailure, htree, hasks]

/-- What becomes of an attempt to collect an outcome. -/
inductive Collects (s : Session) : Prop
  /-- There is no request, or no answer to it. -/
  | nothing (h : ∀ r, s.request = some r → r.answer.reply? = none) (hs : s.collect = (s, false))
  /-- The request ends with what its answer means. -/
  | ended (r : Request) (reply : Except ServiceError Float) (hr : s.request = some r)
      (hreply : r.answer.reply? = some reply)
      (hs : s.collect =
        ({ s with request := none }.finish r.expression (outcome s.mode r.tree reply), true))

theorem collects (s : Session) : s.Collects := by
  cases hr : s.request with
  | none => exact .nothing (by simp [hr]) (by simp [collect, hr])
  | some r =>
      cases hanswer : r.answer with
      | awaited =>
          refine .nothing ?_ (by simp [collect, hr, hanswer])
          simp [hr, hanswer, Answer.reply?]
      | arrived reply =>
          exact .ended r reply hr (by rw [hanswer, Answer.reply?]) (by simp [collect, hr, hanswer])
      | lost =>
          exact .ended r _ hr (by rw [hanswer, Answer.reply?]) (by simp [collect, hr, hanswer])

/-- Without a request there is nothing to collect. -/
theorem collect_of_request_none {s : Session} (h : s.request = none) : s.collect = (s, false) := by
  simp [collect, h]

/-- The session after the due part of a poll: the preview has done what was planned. -/
def previewed (s : Session) : Session := { s with preview := (s.preview.poll s.clock).1 }

theorem poll_fst (s : Session) : s.poll.1 = s.previewed.collect.1 := rfl

/-- Without a request polling does no more than the preview had planned. -/
theorem poll_of_request_none {s : Session} (h : s.request = none) : s.poll.1 = s.previewed := by
  have hnone : s.previewed.request = none := h
  rw [poll_fst, collect_of_request_none hnone]

theorem poll_snd_of_collect {s : Session} (h : s.previewed.collect.2 = true) :
    s.poll.2 = true := by
  change ((s.preview.poll s.clock).2 || s.previewed.collect.2) = true
  rw [h, Bool.or_true]

end Session

/-! ### Texts handed over and outcomes collected -/

namespace Moment

/-- Whether the service is handed a text. -/
def handsOver (m : Moment) : Bool :=
  match (m.session.step m.action).2 with
  | .asked (some _) => true
  | _ => false

/-- Whether the outcome of a request is collected. -/
def collects (m : Moment) : Bool :=
  match m.action with
  | .poll => m.session.previewed.collect.2
  | _ => false

variable {s : Session} {a : Action}

theorem handsOver_calculate (s : Session) :
    (⟨s, .calculate⟩ : Moment).handsOver = s.calculate.2.isSome := by
  cases h : s.calculate.2 <;> simp [handsOver, Session.step, h]

theorem handsOver_of_ne (h : a ≠ .calculate) : (⟨s, a⟩ : Moment).handsOver = false := by
  cases a <;> first | rfl | exact absurd rfl h

theorem collects_of_ne (h : a ≠ .poll) : (⟨s, a⟩ : Moment).collects = false := by
  cases a <;> first | rfl | exact absurd rfl h

end Moment

/-! ### What an action does to the request and to the failure -/

/-- The request `r'` is `r` after a reply may have been brought: the expression is the same, and
only a reply that was still awaited arrives. -/
structure Request.Continues (r r' : Request) (brought : Option (Except ServiceError Float)) :
    Prop where
  expression : r'.expression = r.expression
  tree : r'.tree = r.tree
  reply : r'.answer.reply? = r.answer.reply?.or brought

theorem Request.continues_none (r : Request) : r.Continues r none := ⟨rfl, rfl, by simp⟩

theorem Request.Continues.trans {r r' r'' : Request}
    {brought brought' : Option (Except ServiceError Float)} (h : r.Continues r' brought)
    (h' : r'.Continues r'' brought') : r.Continues r'' (brought.or brought') := by
  refine ⟨h'.expression.trans h.expression, h'.tree.trans h.tree, ?_⟩
  rw [h'.reply, h.reply, Option.or_assoc]

namespace Session

variable {s : Session} {a : Action}

/-- Where input is refused, inserting does nothing. -/
theorem insert_of_locked (h : s.inputAllowed = false) (text : String) : s.insert text = s := by
  simp [insert, h]

/-- Where input is refused, erasing does nothing. -/
theorem eraseLast_of_locked (h : s.inputAllowed = false) : s.eraseLast = s := by
  simp [eraseLast, h]

@[simp] theorem mode_insert (s : Session) (text : String) : (s.insert text).mode = s.mode := by
  unfold insert
  split <;> rfl

@[simp] theorem request_insert (s : Session) (text : String) :
    (s.insert text).request = s.request := by
  unfold insert
  split <;> rfl

@[simp] theorem failure_insert (s : Session) (text : String) :
    (s.insert text).failure = s.failure := by
  unfold insert
  split <;> rfl

@[simp] theorem mode_eraseLast (s : Session) : s.eraseLast.mode = s.mode := by
  simp only [eraseLast, entryChanged]
  split <;> rfl

@[simp] theorem request_eraseLast (s : Session) : s.eraseLast.request = s.request := by
  simp only [eraseLast, entryChanged]
  split <;> rfl

@[simp] theorem failure_eraseLast (s : Session) : s.eraseLast.failure = s.failure := by
  simp only [eraseLast, entryChanged]
  split <;> rfl

/-- Loading a result leaves the session alone, or lifts the failure where no request is under
way. -/
theorem load_cases (s : Session) (index : Nat) :
    s.load index = s ∨
      s.request = none ∧ (s.load index).request = none ∧ (s.load index).failure = none ∧
        (s.load index).mode = s.mode := by
  unfold load
  split
  · exact .inl rfl
  · rename_i hrequest
    split
    · exact .inl rfl
    · have hnone : s.request = none := by simpa using hrequest
      exact .inr ⟨hnone, hnone, rfl, rfl⟩

/-- Where no request is under way, a result of the history is put back into the entry, and
the failure is lifted. -/
theorem load_of_get? (hrequest : s.request = none) {index : Nat} {item : HistoryItem}
    (hitem : s.history.get? index = some item) :
    (s.load index).entry = item.expression ∧ (s.load index).request = none ∧
      (s.load index).failure = none := by
  simp [load, entryChanged, hrequest, hitem]

@[simp] theorem mode_finish (s : Session) (expression : String) (r : Except Failure Float) :
    (s.finish expression r).mode = s.mode := by
  cases r <;> rfl

@[simp] theorem request_finish (s : Session) (expression : String) (r : Except Failure Float) :
    (s.finish expression r).request = s.request := by
  cases r <;> rfl

@[simp] theorem mode_answer (s : Session) (b : Answer) : (s.answer b).1.mode = s.mode := by
  unfold answer
  split <;> rfl

@[simp] theorem entry_answer (s : Session) (b : Answer) : (s.answer b).1.entry = s.entry := by
  unfold answer
  split <;> rfl

@[simp] theorem failure_answer (s : Session) (b : Answer) :
    (s.answer b).1.failure = s.failure := by
  unfold answer
  split <;> rfl

theorem request_answer_of_none (h : s.request = none) (b : Answer) :
    (s.answer b).1.request = none := by
  simp [answer, h]

/-- The answer of the service reaches a request that waits for it, and no other. -/
theorem request_answer_of_some {r : Request} (h : s.request = some r) (b : Answer) :
    ∃ r', (s.answer b).1.request = some r' ∧ r.Continues r' b.reply? := by
  obtain ⟨expression, tree, answer⟩ := r
  cases answer with
  | awaited => exact ⟨⟨expression, tree, b⟩, by simp [Session.answer, h], rfl, rfl, rfl⟩
  | arrived reply => exact ⟨_, by simp [Session.answer, h], rfl, rfl, rfl⟩
  | lost => exact ⟨_, by simp [Session.answer, h], rfl, rfl, rfl⟩

/-- A request stays until its outcome is collected. -/
theorem request_step_of_some {r : Request} (h : s.request = some r)
    (hcollects : (⟨s, a⟩ : Moment).collects = false) :
    ∃ r', (s.step a).1.request = some r' ∧ r.Continues r' a.reply? := by
  have hsame {s' : Session} (h' : s'.request = s.request) :
      ∃ r', s'.request = some r' ∧ r.Continues r' none := ⟨r, h'.trans h, r.continues_none⟩
  cases a with
  | insert text => exact hsame (request_insert s text)
  | memoryRecall => exact hsame (request_insert s _)
  | eraseLast => exact hsame (request_eraseLast s)
  | load index =>
      rcases load_cases s index with hload | ⟨hnone, -⟩
      · exact hsame (congrArg request hload)
      · simp [h] at hnone
  | answer b => exact request_answer_of_some h b
  | calculate => exact hsame (congrArg (·.1.request) (calculate_of_request (by simp [h])))
  | poll =>
      have hfalse : s.previewed.collect.2 = false := hcollects
      cases s.previewed.collects with
      | nothing _ hs => exact hsame (congrArg (·.1.request) hs)
      | ended _ _ _ _ hs => simp [hs] at hfalse
  -- the request is not touched
  | type | focus | clear | reset | memoryAdd | memorySubtract | memoryClear | clearHistory
  | clock | timeOfDay => exact hsame rfl

/-- Without a request there is none until the service is asked. -/
theorem request_step_of_none (h : s.request = none)
    (hhands : (⟨s, a⟩ : Moment).handsOver = false) : (s.step a).1.request = none := by
  cases a with
  | insert text => exact (request_insert s text).trans h
  | memoryRecall => exact (request_insert s _).trans h
  | eraseLast => exact (request_eraseLast s).trans h
  | load index =>
      rcases load_cases s index with hload | ⟨-, hnone, -⟩
      · exact (congrArg request hload).trans h
      · exact hnone
  | answer b => exact request_answer_of_none h b
  | calculate =>
      rw [Moment.handsOver_calculate] at hhands
      change s.calculate.1.request = none
      cases s.calculates with
      | refused _ hs => rwa [hs]
      | ended _ _ hs => rwa [hs, request_finish]
      | asked _ _ _ _ hs => simp [hs] at hhands
  | poll =>
      change s.previewed.collect.1.request = none
      cases s.previewed.collects with
      | nothing _ hs => rwa [hs]
      | ended _ _ _ _ hs => rw [hs, request_finish]
  | type | focus | clear | reset | memoryAdd | memorySubtract | memoryClear | clearHistory
  | clock | timeOfDay => exact h

/-- A text is handed over by a wish to calculate, when no request is under way. -/
theorem of_handsOver (h : (⟨s, a⟩ : Moment).handsOver = true) :
    a = .calculate ∧ s.request = none ∧ (s.step a).1.request.isSome := by
  obtain rfl : a = .calculate :=
    Classical.byContradiction fun ha => by simp [Moment.handsOver_of_ne ha] at h
  rw [Moment.handsOver_calculate] at h
  refine ⟨rfl, ?_⟩
  change s.request = none ∧ s.calculate.1.request.isSome
  cases s.calculates with
  | refused _ hs => simp [hs] at h
  | ended _ _ hs => simp [hs] at h
  | asked hinput _ _ _ hs => exact ⟨(s.inputAllowed_iff.1 hinput).1, by rw [hs]; rfl⟩

/-- An outcome is collected by a poll, and ends the request that is under way. -/
theorem of_collects (h : (⟨s, a⟩ : Moment).collects = true) :
    a = .poll ∧ s.request.isSome ∧ (s.step a).1.request = none := by
  obtain rfl : a = .poll :=
    Classical.byContradiction fun ha => by simp [Moment.collects_of_ne ha] at h
  refine ⟨rfl, ?_⟩
  change s.request.isSome ∧ s.previewed.collect.1.request = none
  have hcollect : s.previewed.collect.2 = true := h
  cases s.previewed.collects with
  | nothing _ hs => simp [hs] at hcollect
  | ended r _ hr _ hs =>
      have hrequest : s.request = some r := hr
      exact ⟨by rw [hrequest]; rfl, by rw [hs, request_finish]⟩

/-- Only calculating and polling can make a failure stand. -/
theorem failure_step (hcalculate : a ≠ .calculate) (hpoll : a ≠ .poll) :
    (s.step a).1.failure = s.failure ∨ (s.step a).1.failure = none := by
  cases a with
  | insert text => exact .inl (failure_insert s text)
  | memoryRecall => exact .inl (failure_insert s _)
  | eraseLast => exact .inl (failure_eraseLast s)
  | clear | reset => exact .inr rfl
  | load index =>
      rcases load_cases s index with hload | ⟨-, -, hnone, -⟩
      · exact .inl (congrArg failure hload)
      · exact .inr hnone
  | answer b => exact .inl (failure_answer s b)
  | calculate => exact absurd rfl hcalculate
  | poll => exact absurd rfl hpoll
  | type | focus | memoryAdd | memorySubtract | memoryClear | clearHistory | clock
  | timeOfDay => exact .inl rfl

/-- The settings decide once and for all where expressions are evaluated. -/
theorem mode_step (s : Session) (a : Action) : (s.step a).1.mode = s.mode := by
  cases a with
  | insert text => exact mode_insert s text
  | memoryRecall => exact mode_insert s _
  | eraseLast => exact mode_eraseLast s
  | load index =>
      rcases load_cases s index with hload | ⟨-, -, -, hmode⟩
      · exact congrArg mode hload
      · exact hmode
  | answer b => exact mode_answer s b
  | calculate =>
      change s.calculate.1.mode = s.mode
      cases s.calculates with
      | refused _ hs => rw [hs]
      | ended _ _ hs => rw [hs, mode_finish]
      | asked _ _ _ _ hs => rw [hs]
  | poll =>
      change s.previewed.collect.1.mode = s.mode
      cases s.previewed.collects with
      | nothing _ hs => rw [hs]; rfl
      | ended _ _ _ _ hs => rw [hs, mode_finish]; rfl
  | type | focus | clear | reset | memoryAdd | memorySubtract | memoryClear | clearHistory
  | clock | timeOfDay => rfl

theorem mode_run (s : Session) (actions : List Action) : (s.run actions).mode = s.mode :=
  run_induction (P := fun s' => s'.mode = s.mode) (fun s' a h => (mode_step s' a).trans h) rfl
    actions

/-! ### At most one request -/

/-- No failure stands beside a request. -/
theorem request_or_failure_step (h : s.request = none ∨ s.failure = none) (a : Action) :
    (s.step a).1.request = none ∨ (s.step a).1.failure = none := by
  by_cases hcalculate : a = .calculate
  · subst hcalculate
    change s.calculate.1.request = none ∨ s.calculate.1.failure = none
    cases s.calculates with
    | refused _ hs => rwa [hs]
    | ended hinput _ hs =>
        rw [hs, request_finish]
        exact .inl (s.inputAllowed_iff.1 hinput).1
    | asked hinput _ _ _ hs =>
        rw [hs]
        exact .inr (s.inputAllowed_iff.1 hinput).2
  by_cases hpoll : a = .poll
  · subst hpoll
    change s.previewed.collect.1.request = none ∨ s.previewed.collect.1.failure = none
    cases s.previewed.collects with
    | nothing _ hs => rwa [hs]
    | ended _ _ _ _ hs =>
        rw [hs, request_finish]
        exact .inl rfl
  rcases h with hrequest | hfailure
  · exact .inl (request_step_of_none hrequest (Moment.handsOver_of_ne hcalculate))
  · rcases failure_step hcalculate hpoll with hsame | hnone
    · exact .inr (hsame.trans hfailure)
    · exact .inr hnone

theorem request_or_failure_run (settings : Settings) (hasService : Bool) (actions : List Action) :
    ((new settings hasService).run actions).request = none ∨
      ((new settings hasService).run actions).failure = none :=
  run_induction (P := fun s => s.request = none ∨ s.failure = none)
    (fun _ a h => request_or_failure_step h a) (.inl rfl) actions

/-- What is handed over and not collected is the request under way. -/
theorem handsOver_collects_step (s : Session) (a : Action) :
    (if (⟨s, a⟩ : Moment).handsOver then 1 else 0) + (if s.request.isSome then 1 else 0) =
      (if (⟨s, a⟩ : Moment).collects then 1 else 0) +
        (if (s.step a).1.request.isSome then 1 else 0) := by
  cases hhands : (⟨s, a⟩ : Moment).handsOver with
  | true =>
      obtain ⟨rfl, hnone, hsome⟩ := of_handsOver hhands
      rw [Moment.collects_of_ne (by simp), hnone, hsome]
      rfl
  | false =>
      cases hcollects : (⟨s, a⟩ : Moment).collects with
      | true =>
          obtain ⟨-, hsome, hnone⟩ := of_collects hcollects
          rw [hnone, hsome]
          rfl
      | false =>
          cases hrequest : s.request with
          | none => rw [request_step_of_none hrequest hhands]
          | some r =>
              obtain ⟨r', hr', -⟩ := request_step_of_some hrequest hcollects
              rw [hr']
              rfl

/-- **At most one request, and no lost or repeated outcome.**  In every session, no failure stands
beside a request; the texts that the service has been handed outnumber the outcomes that have been
collected by one while a request is under way, and by none otherwise; and while a request is under
way or a failure stands, the wish to calculate changes nothing and hands nothing over. -/
theorem one_request_at_a_time (settings : Settings) (hasService : Bool) (actions : List Action) :
    let s := (new settings hasService).run actions
    let past := (new settings hasService).trace actions
    ¬ (s.request.isSome ∧ s.failure.isSome) ∧
    past.countP Moment.handsOver =
      past.countP Moment.collects + (if s.request.isSome then 1 else 0) ∧
    (s.request.isSome ∨ s.failure.isSome → s.step .calculate = (s, .asked none)) := by
  intro s past
  have hapart : s.request = none ∨ s.failure = none :=
    run_induction (P := fun s => s.request = none ∨ s.failure = none)
      (fun _ a h => request_or_failure_step h a) (.inl rfl) actions
  have hcount : past.countP Moment.handsOver =
      past.countP Moment.collects + (if s.request.isSome then 1 else 0) := by
    refine trace_induction (P := fun past s => past.countP Moment.handsOver =
      past.countP Moment.collects + (if s.request.isSome then 1 else 0)) ?_ rfl actions
    intro past s a hpast
    have hstep := handsOver_collects_step s a
    rw [List.countP_append, List.countP_append, List.countP_singleton, List.countP_singleton]
    omega
  refine ⟨?_, hcount, ?_⟩
  · rcases hapart with hnone | hnone <;> simp [hnone]
  · rintro (hrequest | hfailure)
    · rw [step, calculate_of_request hrequest]
    · rw [step, calculate_of_failure hfailure]

/-! ### The answer to a request -/

/-- While nothing is collected a request stays, with the first reply that is brought. -/
theorem request_run_of_some {r : Request} (h : s.request = some r) (actions : List Action)
    (hcollects : ∀ m ∈ s.trace actions, m.collects = false) :
    ∃ r', (s.run actions).request = some r' ∧
      r.Continues r' (actions.findSome? Action.reply?) := by
  induction actions generalizing s r with
  | nil => exact ⟨r, h, r.continues_none⟩
  | cons a actions ih =>
      obtain ⟨hfirst, hlater⟩ := List.forall_mem_cons.1 hcollects
      obtain ⟨r₁, hr₁, hcontinues₁⟩ := request_step_of_some h hfirst
      obtain ⟨r₂, hr₂, hcontinues₂⟩ := ih hr₁ hlater
      refine ⟨r₂, hr₂, ?_⟩
      have hreply : (a :: actions).findSome? Action.reply? =
          a.reply?.or (actions.findSome? Action.reply?) := by
        cases hreply : a.reply? <;> simp [hreply]
      rw [hreply]
      exact hcontinues₁.trans hcontinues₂

/-- The session `s'` is what a calculation of the expression with the value `v` leaves of `s`: a new
item in front of the history, and the value in the place of the entry. -/
structure Succeeds (s s' : Session) (expression : String) (v : Float) : Prop where
  history : s'.history = s.history.add ⟨expression, v, s.timeOfDay⟩
  head : s'.history.items.head? = some ⟨expression, v, s.timeOfDay⟩
  result : s'.result = some v
  entry : s'.entry = entryText v
  failure : s'.failure = none

/-- The session `s'` is what a calculation that fails leaves of `s`. -/
structure Fails (s s' : Session) (f : Failure) : Prop where
  failure : s'.failure = some f
  history : s'.history = s.history
  result : s'.result = s.result
  entry : s'.entry = s.entry

/-- A poll that collects an outcome ends the request, and then the calculation. -/
theorem poll_of_reply {r : Request} {reply : Except ServiceError Float} (h : s.request = some r)
    (hreply : r.answer.reply? = some reply) :
    s.poll.1 = { s.previewed with request := none }.finish r.expression
      (outcome s.mode r.tree reply) ∧ s.poll.2 = true := by
  cases s.previewed.collects with
  | nothing hnothing _ => simp [hnothing r h] at hreply
  | ended r' reply' hr' hreply' hs =>
      obtain rfl : r = r' := Option.some.inj (h.symm.trans hr')
      obtain rfl : reply = reply' := Option.some.inj (hreply.symm.trans hreply')
      exact ⟨by rw [poll_fst, hs]; rfl, poll_snd_of_collect (by rw [hs])⟩

theorem poll_succeeds {r : Request} {reply : Except ServiceError Float} {v : Float}
    (h : s.request = some r) (hreply : r.answer.reply? = some reply)
    (hv : outcome s.mode r.tree reply = .ok v) : s.Succeeds s.poll.1 r.expression v := by
  rw [(poll_of_reply h hreply).1, hv]
  exact ⟨rfl, History.head?_items_add _ _, rfl, rfl, rfl⟩

theorem poll_fails {r : Request} {reply : Except ServiceError Float} {f : Failure}
    (h : s.request = some r) (hreply : r.answer.reply? = some reply)
    (hf : outcome s.mode r.tree reply = .error f) : s.Fails s.poll.1 f := by
  rw [(poll_of_reply h hreply).1, hf]
  exact ⟨rfl, rfl, rfl, rfl⟩

/-- The service is asked when input is allowed, the settings want it, and the entry writes an
expression; it is asked for the canonical text of this expression. -/
theorem calculate_snd_eq_some {text : String} :
    s.calculate.2 = some text ↔
      s.inputAllowed = true ∧ s.asksService = true ∧
        ∃ tree, Expr.ofText (trim s.entry) = .ok tree ∧ text = tree.canonicalText := by
  cases s.calculates with
  | refused hinput hs => simp [hs, hinput]
  | ended _ hasks hs =>
      rw [hs]
      refine iff_of_false (by simp) ?_
      rintro ⟨-, hservice, tree, htree, -⟩
      simp [hasks tree htree] at hservice
  | asked hinput hasks tree htree hs =>
      rw [hs]
      simp [hinput, hasks, htree, eq_comm]

/-- What is sent, and what comes of it, is about the entry as it was when the service was asked. -/
theorem request_calculate {text : String} (h : s.calculate.2 = some text) :
    ∃ tree, Expr.ofText (trim s.entry) = .ok tree ∧ text = tree.canonicalText ∧
      s.calculate.1.request = some { expression := trim s.entry, tree } := by
  cases s.calculates with
  | refused _ hs => simp [hs] at h
  | ended _ _ hs => simp [hs] at h
  | asked _ _ tree htree hs =>
      rw [hs] at h
      exact ⟨tree, htree, (Option.some.inj h).symm, by rw [hs]⟩

/-- **An answer is applied to the expression that was sent.**  The service is asked for the
canonical text of the entry without the blanks at its ends, and for nothing if this writes no
expression.  Whatever happens to the session until the outcome is collected, the poll after the
first reply ends the calculation of just this expression: with the value of the reply, with the
value or the arithmetic error of the expression if the service gave none and the program may
evaluate instead, and with the service's error if it may not. -/
theorem answer_applied_to_expression (s : Session) :
    (∀ text, s.calculate.2 = some text ↔
      s.inputAllowed = true ∧ s.asksService = true ∧
        ∃ tree, Expr.ofText (trim s.entry) = .ok tree ∧ text = tree.canonicalText) ∧
    (∀ e, Expr.ofText (trim s.entry) = .error e → s.calculate.2 = none) ∧
    ∀ text tree, s.calculate.2 = some text → Expr.ofText (trim s.entry) = .ok tree →
      ∀ between : List Action, (∀ m ∈ s.calculate.1.trace between, m.collects = false) →
        let waiting := s.calculate.1.run between
        ∀ reply, between.findSome? Action.reply? = some reply →
          waiting.poll.2 = true ∧ waiting.poll.1.request = none ∧
          (∀ v, reply = .ok v → waiting.Succeeds waiting.poll.1 (trim s.entry) v) ∧
          (∀ e, reply = .error e → s.mode = .serviceOrBuiltIn →
            (∀ v, tree.evaluate = .ok v → waiting.Succeeds waiting.poll.1 (trim s.entry) v) ∧
            (∀ f, tree.evaluate = .error f → waiting.Fails waiting.poll.1 (.arithmetic f))) ∧
          (∀ e, reply = .error e → s.mode = .service →
            waiting.Fails waiting.poll.1 (.service e)) := by
  refine ⟨fun text => calculate_snd_eq_some, ?_, ?_⟩
  · intro e he
    rw [Option.eq_none_iff_forall_ne_some]
    intro text htext
    obtain ⟨-, -, tree, htree, -⟩ := calculate_snd_eq_some.1 htext
    simp [he] at htree
  · intro text tree htext htree between hbetween waiting reply hreply
    obtain ⟨tree', htree', -, hrequest⟩ := request_calculate htext
    obtain rfl : tree = tree' := Except.ok.inj (htree.symm.trans htree')
    obtain ⟨r, hr, hcontinues⟩ := request_run_of_some hrequest between hbetween
    have hanswer : r.answer.reply? = some reply := by
      rw [hcontinues.reply, hreply]
      rfl
    have hexpression : r.expression = trim s.entry := hcontinues.expression
    have hmode : waiting.mode = s.mode :=
      (mode_run _ between).trans (mode_step s .calculate)
    have houtcome : outcome waiting.mode r.tree reply = outcome s.mode tree reply := by
      rw [hmode, hcontinues.tree]
    obtain ⟨hpoll, hcollected⟩ := poll_of_reply hr hanswer
    refine ⟨hcollected, by rw [hpoll, request_finish], ?_, ?_, ?_⟩
    · rintro v rfl
      rw [← hexpression]
      exact poll_succeeds hr hanswer (houtcome.trans rfl)
    · rintro e rfl hfallback
      have hlocal : outcome s.mode tree (.error e) = tree.evaluate.mapError .arithmetic :=
        if_pos hfallback
      rw [hlocal] at houtcome
      constructor
      · intro v hv
        rw [← hexpression]
        exact poll_succeeds hr hanswer (by rw [houtcome, hv]; rfl)
      · intro f hf
        exact poll_fails hr hanswer (by rw [houtcome, hf]; rfl)
    · rintro e rfl hservice
      exact poll_fails hr hanswer (by rw [houtcome, outcome, hservice]; rfl)

end Session

end Calculator
