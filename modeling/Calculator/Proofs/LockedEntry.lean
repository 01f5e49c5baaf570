/-
**A locked entry.**

While a request is under way, and while a failure stands, input is refused.  The entry is then
locked, though not for good: the clear keys empty it, a result of the history takes its place unless
a request is under way, and the result of the request takes its place when it is collected.  Every
other action leaves it alone, refused or not; so does the outcome of a request that is no value.  A
failure is lifted with the entry, by clearing and by putting a result back, and by nothing else.

Clearing lifts a failure and leaves a request, so it would not always allow input again.  It does
after a failure, because no request is under way beside one.  This, and that no poll replaces a
failure by another, is what has to be known about whole runs; the rest is read off single actions.

Main definitions

* `Calculator.Moment.clears`, `Calculator.Moment.loads?` — the actions that release the entry and
  the failure at any time;
* `Calculator.Session.StepsLocked` — what an action does to a session that refuses input.

Main results

* `Calculator.Session.entry_step_of_locked`, `Calculator.Session.failure_step_of_standing` — what
  leaves the entry and the failure alone;
* `Calculator.Session.input_locked_until_released` — every session that refuses input steps so.
-/

import Calculator.Proofs.HistoryLog

set_option autoImplicit false

namespace Calculator

/-! ### What releases the entry -/

namespace Moment

/-- Whether one of the clear keys is pressed. -/
def clears (m : Moment) : Bool :=
  match m.action with
  | .clear => true
  | .reset => true
  | _ => false

/-- The result of the history that is put back into the entry. -/
def loads? (m : Moment) : Option HistoryItem :=
  match m.action with
  | .load index => if m.session.request.isSome then none else m.session.history.get? index
  | _ => none

end Moment

namespace Session

variable {s : Session} {a : Action}

/-- Clearing empties the entry, lifts the failure and leaves the request. -/
theorem step_of_clears (h : (⟨s, a⟩ : Moment).clears = true) :
    (s.step a).1.entry = "" ∧ (s.step a).1.failure = none ∧ (s.step a).1.request = s.request := by
  cases a with
  | clear => exact ⟨rfl, rfl, rfl⟩
  | reset => exact ⟨rfl, rfl, rfl⟩
  | _ => cases h

/-- A result that is put back replaces the entry and lifts the failure. -/
theorem step_of_loads? {item : HistoryItem} (h : (⟨s, a⟩ : Moment).loads? = some item) :
    (s.step a).1.entry = item.expression ∧ (s.step a).1.failure = none := by
  cases a with
  | load index =>
      simp only [Moment.loads?] at h
      split at h
      · cases h
      · rename_i hrequest
        obtain ⟨hentry, -, hfailure⟩ := load_of_get? (by simpa using hrequest) h
        exact ⟨hentry, hfailure⟩
  | _ => cases h

/-- Where nothing is put back, loading does nothing. -/
theorem load_of_loads?_none {index : Nat} (h : (⟨s, .load index⟩ : Moment).loads? = none) :
    s.load index = s := by
  simp only [Moment.loads?] at h
  unfold load
  split
  · rfl
  · rename_i hrequest
    rw [if_neg hrequest] at h
    rw [h]

/-- A value that ends a calculation replaces the entry. -/
theorem entry_step_of_success {expression : String} {v : Float}
    (h : (⟨s, a⟩ : Moment).success? = some (expression, v)) :
    (s.step a).1.entry = entryText v := by
  obtain ⟨preview, hstep⟩ := step_of_ended (Moment.success?_eq_some.1 h)
  rw [hstep]
  rfl

/-- Where input is refused, a calculation can only end by a poll. -/
theorem eq_poll_of_ended (hinput : s.inputAllowed = false) {x : String × Except Failure Float}
    (h : (⟨s, a⟩ : Moment).ended? = some x) : a = .poll := by
  cases a with
  | poll => rfl
  | calculate => simp [Moment.ended?, hinput] at h
  | _ => cases h

/-! ### What leaves the entry and the failure alone -/

/-- Polling changes the entry only if it collects a value. -/
theorem entry_poll_of_not_success (h : (⟨s, .poll⟩ : Moment).success? = none) :
    s.poll.1.entry = s.entry := by
  cases hended : (⟨s, .poll⟩ : Moment).ended? with
  | some x =>
      obtain ⟨expression, r⟩ := x
      cases r with
      | ok v => cases h.symm.trans (Moment.success?_eq_some.2 hended)
      | error e =>
          obtain ⟨preview, hstep⟩ := step_of_ended hended
          change (s.step .poll).1.entry = s.entry
          rw [hstep]
          rfl
  | none =>
      rw [poll_of_not_ended hended]
      rfl

/-- A locked entry stays, unless it is released. -/
theorem entry_step_of_locked (hinput : s.inputAllowed = false)
    (htypes : (⟨s, a⟩ : Moment).typesLocked = false) (hclears : (⟨s, a⟩ : Moment).clears = false)
    (hloads : (⟨s, a⟩ : Moment).loads? = none) (hsuccess : (⟨s, a⟩ : Moment).success? = none) :
    (s.step a).1.entry = s.entry := by
  cases a with
  | insert text => exact congrArg entry (insert_of_locked hinput text)
  | memoryRecall => exact congrArg entry (insert_of_locked hinput _)
  | eraseLast => exact congrArg entry (eraseLast_of_locked hinput)
  | type text => simp [Moment.typesLocked, hinput] at htypes
  | clear => cases hclears
  | reset => cases hclears
  | load index => exact congrArg entry (load_of_loads?_none hloads)
  | answer b => exact entry_answer s b
  | poll => exact entry_poll_of_not_success hsuccess
  | calculate =>
      change s.calculate.1.entry = s.entry
      cases s.calculates with
      | refused _ hs => rw [hs]
      | ended hinput' _ _ => cases hinput.symm.trans hinput'
      | asked hinput' _ _ _ _ => cases hinput.symm.trans hinput'
  | focus | memoryAdd | memorySubtract | memoryClear | clearHistory | clock | timeOfDay => rfl

/-- A failure stays, unless it is lifted; no request is under way that could bring another. -/
theorem failure_step_of_standing {f : Failure} (hrequest : s.request = none)
    (hfailure : s.failure = some f) (hclears : (⟨s, a⟩ : Moment).clears = false)
    (hloads : (⟨s, a⟩ : Moment).loads? = none) : (s.step a).1.failure = some f := by
  have hstanding : s.failure.isSome := by rw [hfailure]; rfl
  rw [← hfailure]
  cases a with
  | insert text => exact failure_insert s text
  | memoryRecall => exact failure_insert s _
  | eraseLast => exact failure_eraseLast s
  | clear => cases hclears
  | reset => cases hclears
  | load index => exact congrArg failure (load_of_loads?_none hloads)
  | answer b => exact failure_answer s b
  | poll =>
      change s.poll.1.failure = s.failure
      rw [poll_of_request_none hrequest]
      rfl
  | calculate => exact congrArg (·.1.failure) (calculate_of_failure hstanding)
  | type | focus | memoryAdd | memorySubtract | memoryClear | clearHistory | clock
  | timeOfDay => rfl

/-! ### Locked until released -/

/-- What an action does to a session that refuses input: there are three ways to change the entry,
and two of them lift a failure that stands. -/
structure StepsLocked (s : Session) (a : Action) : Prop where
  /-- Clearing empties the entry, and after a failure it allows input again. -/
  cleared : (⟨s, a⟩ : Moment).clears = true → (s.step a).1.entry = "" ∧
    (s.failure.isSome → (s.step a).1.failure = none ∧ (s.step a).1.inputAllowed = true)
  /-- Without a request, a result of the history is put back and lifts the failure. -/
  loaded : ∀ item, (⟨s, a⟩ : Moment).loads? = some item →
    (s.step a).1.entry = item.expression ∧ (s.step a).1.failure = none
  /-- The value of the request is collected by a poll. -/
  collected : ∀ expression v, (⟨s, a⟩ : Moment).success? = some (expression, v) →
    a = .poll ∧ (s.step a).1.entry = entryText v
  /-- Nothing else changes the entry. -/
  entry : (⟨s, a⟩ : Moment).clears = false → (⟨s, a⟩ : Moment).loads? = none →
    (⟨s, a⟩ : Moment).success? = none → (s.step a).1.entry = s.entry
  /-- Nothing but clearing and putting back changes a failure. -/
  failure : ∀ f, s.failure = some f → (⟨s, a⟩ : Moment).clears = false →
    (⟨s, a⟩ : Moment).loads? = none → (s.step a).1.failure = some f

theorem stepsLocked (hinput : s.inputAllowed = false)
    (hapart : s.request = none ∨ s.failure = none)
    (htypes : (⟨s, a⟩ : Moment).typesLocked = false) : s.StepsLocked a := by
  -- beside a failure there is no request
  have hidle {f : Failure} (hf : s.failure = some f) : s.request = none := by
    rcases hapart with hrequest | hnone
    · exact hrequest
    · cases hnone.symm.trans hf
  constructor
  · intro hclears
    obtain ⟨hentry, hlifted, hrequest⟩ := step_of_clears hclears
    refine ⟨hentry, ?_⟩
    intro hfailure
    obtain ⟨f, hf⟩ := Option.isSome_iff_exists.1 hfailure
    exact ⟨hlifted, (inputAllowed_iff _).2 ⟨hrequest.trans (hidle hf), hlifted⟩⟩
  · intro item hitem
    exact step_of_loads? hitem
  · intro expression v hsuccess
    have hended := Moment.success?_eq_some.1 hsuccess
    exact ⟨eq_poll_of_ended hinput hended, entry_step_of_success hsuccess⟩
  · intro hclears hloads hsuccess
    exact entry_step_of_locked hinput htypes hclears hloads hsuccess
  · intro f hf hclears hloads
    exact failure_step_of_standing (hidle hf) hf hclears hloads

/-- **Input stays locked until it is released.**  In every session with a request under way or a
failure that stands, an action other than typing, which the entry field prevents, leaves the entry
unless it clears it, puts a result of the history back where no request is under way, or collects
the value of the request; and a failure stays unless the entry is cleared or a result put back.
After clearing a failure input is allowed. -/
theorem input_locked_until_released (settings : Settings) (hasService : Bool)
    (actions : List Action) :
    let s := (new settings hasService).run actions
    s.request.isSome ∨ s.failure.isSome →
      ∀ a, (⟨s, a⟩ : Moment).typesLocked = false → s.StepsLocked a := by
  intro s hlocked a htypes
  have hapart : s.request = none ∨ s.failure = none :=
    request_or_failure_run settings hasService actions
  have hinput : s.inputAllowed = false := by
    rw [inputAllowed_eq_false_iff, Bool.or_eq_true]
    exact hlocked
  exact stepsLocked hinput hapart htypes

/-- A sum that waits for its value, which has arrived. -/
theorem input_locked_until_released_sum :
    let actions : List Action := [.type "2+2", .calculate, .answer (.arrived (.ok 4))]
    let s := (new { mode := .service } true).run actions
    s.request.isSome ∧ (⟨s, .poll⟩ : Moment).typesLocked = false ∧
      (⟨s, .poll⟩ : Moment).success? = some ("2+2", 4) ∧ s.StepsLocked .poll := by
  intro actions s
  have hrequest : s.request.isSome := by decide +kernel
  have hsuccess : (⟨s, .poll⟩ : Moment).success? = some ("2+2", 4) := by decide +kernel
  exact ⟨hrequest, rfl, hsuccess,
    input_locked_until_released _ true actions (.inl hrequest) .poll rfl⟩

end Session

end Calculator
