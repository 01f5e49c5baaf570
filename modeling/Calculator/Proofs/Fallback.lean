/-
**A service to fall back from.**

Where the program evaluates an expression itself if the service gives no value, the service should
not be noticed, as long as it does not lie: whether it answers with the right value, with an error
or not at all, the session ends up as if it had never been asked.  The two calculations take
different ways there.  Evaluated in the program, an expression ends its calculation at once, and
only a success cancels the preview.  Sent to the service, it cancels the preview at the start, and
polls go on while the answer is awaited.  A text that writes no expression is refused before the
service is asked.

Entry, result, failure, history and memory are settled by how the calculation ends, and it ends the
same way.  That the preview is the same in the end, too, comes from its being empty on both ways:
after a success it has been cancelled, and after a failure the entry, blanks at its ends or not, has
no value that could be shown.

Main definitions

* `Calculator.Preview.ShowsNothing` — nothing is shown, and nothing will be;
* `Calculator.Session.Alike`, `Calculator.Session.Indistinguishable` — sessions that differ in
  nothing but what goes on behind them;
* `Calculator.Action.passesTime` — what happens while an answer is awaited.

Main results

* `Calculator.Session.Alike.finish` — sessions that are alike stay so when a calculation ends;
* `Calculator.Session.Rests.run` — while an answer is awaited, time changes nothing that is seen;
* `Calculator.Session.calculate_builtIn`, `Calculator.Session.calculate_serviceOrBuiltIn` — how a
  calculation ends on either way;
* `Calculator.Session.fallback_indistinguishable` — a service that does not lie is not noticed.
-/

import Calculator.Proofs.PreviewOfEntry
import Calculator.Proofs.Requests
import Calculator.Proofs.Trimming

set_option autoImplicit false

namespace Calculator

/-! ### An empty preview -/

namespace Preview

/-- Nothing is shown, and what is planned has no value. -/
structure ShowsNothing (p : Preview) : Prop where
  value : p.value = none
  plan : ∀ plan, p.plan = some plan → (evaluateText plan.text).toOption = none

variable {p : Preview}

theorem showsNothing_cancel (p : Preview) : p.cancel.ShowsNothing := ⟨rfl, nofun⟩

/-- About a text without a value there is nothing to show. -/
theorem ShowsOnly.showsNothing {text : String} (h : p.ShowsOnly text)
    (hno : ∀ v, evaluateText text ≠ .ok v) : p.ShowsNothing := by
  constructor
  · rw [Option.eq_none_iff_forall_ne_some]
    intro v hv
    exact hno v (h.value v hv)
  · intro plan hplan
    rw [h.plan plan hplan, Option.eq_none_iff_forall_ne_some]
    intro v hv
    exact hno v (toOption_eq_some_iff.1 hv)

/-- What comes due without a value is not shown either. -/
theorem ShowsNothing.poll (h : p.ShowsNothing) (now : Nat) : (p.poll now).1.ShowsNothing := by
  unfold Preview.poll
  split
  · rename_i plan hplan
    split
    · rw [h.plan plan hplan]
      unfold Preview.deliver
      split
      · exact ⟨rfl, nofun⟩
      · exact ⟨h.value, nofun⟩
    · exact h
  · exact h

end Preview

/-! ### Sessions that are alike -/

namespace Session

/-- The sessions have the same entry, result, failure, history and memory, times of day apart. -/
structure Alike (s s' : Session) : Prop where
  entry : s'.entry = s.entry
  result : s'.result = s.result
  failure : s'.failure = s.failure
  memory : s'.memory = s.memory
  results : s'.history.results = s.history.results
  capacity : s'.history.capacity = s.history.capacity

/-- The sessions are alike, show the same preview, and no request is under way in either. -/
structure Indistinguishable (s s' : Session) : Prop extends Alike s s' where
  previewed : s'.preview.value = s.preview.value
  idle : s.request = none ∧ s'.request = none

variable {s s' s'' : Session}

theorem Alike.trans (h : s.Alike s') (h' : s'.Alike s'') : s.Alike s'' where
  entry := h'.entry.trans h.entry
  result := h'.result.trans h.result
  failure := h'.failure.trans h.failure
  memory := h'.memory.trans h.memory
  results := h'.results.trans h.results
  capacity := h'.capacity.trans h.capacity

/-- Sessions that are alike stay so when the same calculation ends. -/
theorem Alike.finish (h : s.Alike s') (expression : String) (r : Except Failure Float) :
    (s.finish expression r).Alike (s'.finish expression r) := by
  cases r with
  | ok v =>
      refine ⟨rfl, rfl, rfl, h.memory, ?_, h.capacity⟩
      simp only [Session.finish, History.results_add, h.results, h.capacity]
  | error e => exact ⟨h.entry, h.result, rfl, h.memory, h.results, h.capacity⟩

/-- A calculation that ends shows no preview of its own. -/
theorem showsNothing_finish (h : s.preview.ShowsNothing) (expression : String)
    (r : Except Failure Float) : (s.finish expression r).preview.ShowsNothing := by
  cases r with
  | ok v => exact Preview.showsNothing_cancel _
  | error e => exact h

end Session

/-! ### Waiting for an answer -/

/-- Time passes: the clock and the time of day are set, and what is due is done. -/
def Action.passesTime : Action → Bool
  | .clock _ => true
  | .timeOfDay _ => true
  | .poll => true
  | _ => false

namespace Session

/-- The session `s'` is `s` some time later, with nothing in its preview. -/
structure Rests (s s' : Session) : Prop extends Alike s s' where
  request : s'.request = s.request
  mode : s'.mode = s.mode
  preview : s'.preview.ShowsNothing

variable {s s' : Session} {a : Answer} {b : Action} {r : Request}
  {reply : Except ServiceError Float}

theorem Rests.refl (h : s.preview.ShowsNothing) : s.Rests s :=
  ⟨⟨rfl, rfl, rfl, rfl, rfl, rfl⟩, rfl, rfl, h⟩

theorem Rests.poll (h : s.Rests s') (hawaited : ∀ r, s.request = some r → r.answer = .awaited) :
    s.Rests s'.poll.1 := by
  rw [poll_of_awaited (h.request ▸ hawaited)]
  exact ⟨⟨h.entry, h.result, h.failure, h.memory, h.results, h.capacity⟩, h.request, h.mode,
    h.preview.poll _⟩

/-- While no answer is there, time changes nothing. -/
theorem Rests.step (h : s.Rests s') (hawaited : ∀ r, s.request = some r → r.answer = .awaited)
    (hb : b.passesTime = true) : s.Rests (s'.step b).1 := by
  cases b with
  | clock | timeOfDay =>
      exact ⟨⟨h.entry, h.result, h.failure, h.memory, h.results, h.capacity⟩, h.request, h.mode,
        h.preview⟩
  | poll => exact h.poll hawaited
  | _ => cases hb

theorem Rests.run (h : s.Rests s') (hawaited : ∀ r, s.request = some r → r.answer = .awaited)
    {waiting : List Action} (hwaiting : ∀ b ∈ waiting, b.passesTime = true) :
    s.Rests (s'.run waiting) := by
  induction waiting generalizing s' with
  | nil => exact h
  | cons b waiting ih =>
      obtain ⟨hb, hwaiting⟩ := List.forall_mem_cons.1 hwaiting
      exact ih (h.step hawaited hb) hwaiting

/-- When nobody has been asked, no answer is taken. -/
theorem Rests.poll_answer_of_none (h : s.Rests s') (hrequest : s.request = none) (a : Answer) :
    s.Rests (s'.answer a).1.poll.1 := by
  have hanswer : (s'.answer a).1 = s' := by simp [Session.answer, h.request, hrequest]
  rw [hanswer]
  exact h.poll (by simp [hrequest])

/-- The answer ends the calculation as if no time had passed. -/
theorem Rests.poll_answer_of_some (h : s.Rests s') (hr : s.request = some r)
    (hawaited : r.answer = .awaited) (hreply : a.reply? = some reply) :
    let last := (s'.answer a).1.poll.1
    ({ s with request := none }.finish r.expression (outcome s.mode r.tree reply)).Alike last ∧
      last.preview.ShowsNothing ∧ last.request = none := by
  intro last
  obtain ⟨expression, tree, answer⟩ := r
  obtain rfl : answer = .awaited := hawaited
  let answered : Session := { s' with request := some { expression, tree, answer := a } }
  have hanswer : (s'.answer a).1 = answered := by simp [Session.answer, h.request, hr, answered]
  have hlast : last = { answered.previewed with request := none }.finish expression
      (outcome s.mode tree reply) := by
    change (s'.answer a).1.poll.1 = _
    rw [hanswer, ← h.mode]
    exact (poll_of_reply (s := answered) rfl hreply).1
  have halike : Alike { s with request := none } { answered.previewed with request := none } :=
    ⟨h.entry, h.result, h.failure, h.memory, h.results, h.capacity⟩
  rw [hlast]
  exact ⟨halike.finish _ _, showsNothing_finish (h.preview.poll _) _ _, request_finish _ _ _⟩

/-! ### The service is not noticed -/

/-- The answer of a service that does not lie means what the program would have found. -/
theorem outcome_of_honest {text : String} {tree : Expr} (htree : Expr.ofText text = .ok tree)
    (hhonest : ∀ v, reply = .ok v → evaluateText text = .ok v) :
    outcome .serviceOrBuiltIn tree reply = evaluateText text := by
  cases reply with
  | ok v => exact (hhonest v rfl).symm
  | error e => exact (evaluateText_of_ofText htree).symm

/-- Where the program evaluates for itself, a calculation ends at once, and nothing is shown
afterwards: a result has cancelled the preview, and without a result there was nothing to show. -/
theorem calculate_builtIn (hfits : s.PreviewFits) (hrequest : s.request = none)
    (hfailure : s.failure = none) (hmode : s.mode = .builtIn) :
    s.calculate.1 = s.finish (trim s.entry) (evaluateText (trim s.entry)) ∧
      s.calculate.1.preview.ShowsNothing ∧ s.calculate.1.request = none := by
  have hasks : s.asksService = false := by simp [asksService, hmode]
  cases s.calculates with
  | refused hinput _ => simp [inputAllowed, hrequest, hfailure] at hinput
  | asked _ hasks' _ _ _ => simp [hasks] at hasks'
  | ended _ _ hs =>
      rw [hs]
      refine ⟨rfl, ?_, by rw [request_finish, hrequest]⟩
      cases hevaluate : evaluateText (trim s.entry) with
      | ok v => exact Preview.showsNothing_cancel _
      | error e =>
          refine hfits.showsNothing ?_
          intro v hv
          cases hevaluate.symm.trans (evaluateText_trim_eq_ok.2 hv)

/-- Where the service is asked and the program can evaluate instead, a calculation ends with the
answer as if the program had evaluated at once. -/
theorem calculate_serviceOrBuiltIn (hfits : s.PreviewFits) (hrequest : s.request = none)
    (hfailure : s.failure = none) (hmode : s.mode = .serviceOrBuiltIn)
    (hservice : s.hasService = true) (hreply : a.reply? = some reply)
    (hhonest : ∀ v, reply = .ok v → evaluateText s.entry = .ok v)
    {waiting : List Action} (hwaiting : ∀ b ∈ waiting, b.passesTime = true) :
    let last := ((s.calculate.1.run waiting).answer a).1.poll.1
    (s.finish (trim s.entry) (evaluateText (trim s.entry))).Alike last ∧
      last.preview.ShowsNothing ∧ last.request = none := by
  have hasks : s.asksService = true := by simp [asksService, hmode, hservice]
  cases s.calculates with
  | refused hinput _ => simp [inputAllowed, hrequest, hfailure] at hinput
  | ended _ hnobody hs =>
      -- the text writes no expression, and nobody has been asked
      let failed := s.finish (trim s.entry) (evaluateText (trim s.entry))
      have hnone : failed.request = none := (request_finish s _ _).trans hrequest
      have hempty : s.preview.ShowsNothing := by
        refine hfits.showsNothing ?_
        intro v hv
        obtain ⟨tree, htree, -⟩ := evaluateText_eq_ok.1 (evaluateText_trim_eq_ok.2 hv)
        simp [hnobody tree htree] at hasks
      have hawaited : ∀ r, failed.request = some r → r.answer = .awaited := by simp [hnone]
      have hrests : failed.Rests (failed.run waiting) :=
        (Rests.refl (showsNothing_finish hempty _ _)).run hawaited hwaiting
      have hlast := hrests.poll_answer_of_none hnone a
      rw [hs]
      exact ⟨hlast.toAlike, hlast.preview, hlast.request.trans hnone⟩
  | asked _ _ tree htree hs =>
      let started : Session :=
        { s with
          preview := s.preview.cancel
          request := some { expression := trim s.entry, tree } }
      have hawaited : ∀ r, started.request = some r → r.answer = .awaited := by
        intro r hr
        obtain rfl := Option.some.inj hr
        rfl
      have hrests : started.Rests (started.run waiting) :=
        (Rests.refl (Preview.showsNothing_cancel s.preview)).run hawaited hwaiting
      have houtcome : outcome started.mode tree reply = evaluateText (trim s.entry) := by
        change outcome s.mode tree reply = _
        rw [hmode]
        exact outcome_of_honest htree fun v hv => evaluateText_trim_eq_ok.2 (hhonest v hv)
      obtain ⟨halike, hempty, hended⟩ := hrests.poll_answer_of_some rfl rfl hreply
      have hsame : s.Alike { started with request := none } := ⟨rfl, rfl, rfl, rfl, rfl, rfl⟩
      rw [houtcome] at halike
      rw [hs]
      exact ⟨(hsame.finish _ _).trans halike, hempty, hended⟩

/-- **A service that does not lie is not noticed.**  From every session that a run leads to, if
input is allowed, calculate in the program, and calculate by the service with the program to fall
back on, at another time of day; after some time let the answer come and be collected.  If it is an
error, or no answer at all, or the value that the entry has, then both sessions have the same entry,
result, failure, memory and preview, and the same history but for the times of day. -/
theorem fallback_indistinguishable (settings : Settings) (hasService : Bool)
    (actions : List Action) (time : String) {a : Answer} {reply : Except ServiceError Float}
    {waiting : List Action} (hreply : a.reply? = some reply)
    (hwaiting : ∀ b ∈ waiting, b.passesTime = true) :
    let s := (new settings hasService).run actions
    s.request = none → s.failure = none →
    (∀ v, reply = .ok v → evaluateText s.entry = .ok v) →
    let builtIn : Session := { s with mode := .builtIn }
    let remote : Session :=
      { s with mode := .serviceOrBuiltIn, hasService := true, timeOfDay := time }
    (builtIn.run [.calculate]).Indistinguishable
      (remote.run (.calculate :: waiting ++ [.answer a, .poll])) := by
  intro s hrequest hfailure hhonest builtIn remote
  have hfits : s.PreviewFits := previewFits_run settings hasService actions
  have hsame : builtIn.Alike remote := ⟨rfl, rfl, rfl, rfl, rfl, rfl⟩
  have hremote : remote.run (.calculate :: waiting ++ [.answer a, .poll]) =
      ((remote.calculate.1.run waiting).answer a).1.poll.1 := by
    rw [List.cons_append, run_cons, run_append]
    rfl
  obtain ⟨hends, hempty, hidle⟩ :=
    calculate_builtIn (s := builtIn) hfits hrequest hfailure rfl
  obtain ⟨halike, hempty', hidle'⟩ :=
    calculate_serviceOrBuiltIn (s := remote) hfits hrequest hfailure rfl rfl hreply hhonest hwaiting
  have hends' : builtIn.run [.calculate] =
      builtIn.finish (trim s.entry) (evaluateText (trim s.entry)) := hends
  rw [hremote]
  refine ⟨?_, hempty'.value.trans hempty.value.symm, hidle, hidle'⟩
  rw [hends']
  exact (hsame.finish _ _).trans halike

/-- A difference that the service does not get to answer, its preview being shown before. -/
theorem fallback_indistinguishable_lost :
    let actions : List Action := [.type " 10-3-2", .clock 300, .poll]
    let waiting : List Action := [.poll, .clock 1000, .poll]
    let s := (new { mode := .serviceOrBuiltIn } true).run actions
    let builtIn : Session := { s with mode := .builtIn }
    let remote : Session :=
      { s with mode := .serviceOrBuiltIn, hasService := true, timeOfDay := "12:00" }
    s.request = none ∧ s.failure = none ∧
      (builtIn.run [.calculate]).Indistinguishable
        (remote.run (.calculate :: waiting ++ [.answer .lost, .poll])) := by
  intro actions waiting s builtIn remote
  have hrequest : s.request = none := by decide +kernel
  have hfailure : s.failure = none := by decide +kernel
  have hreply : Answer.lost.reply? = some (.error .unavailable) := rfl
  have hwaiting : ∀ b ∈ waiting, b.passesTime = true := by decide
  exact ⟨hrequest, hfailure, fallback_indistinguishable _ true actions "12:00" hreply hwaiting
    hrequest hfailure nofun⟩

end Session

end Calculator
