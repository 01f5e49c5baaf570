/-
**The preview belongs to the entry.**

The preview and the entry are separate parts of a session, and about ten operations change the
entry.  The invariant that ties them together says that the text of a planned evaluation is the
entry, that nothing has come after the plan, and that a value shown is the value of the entry.
Every operation keeps it: those that change the entry drop the old plan and the old value, and all
others leave both alone or let the preview do what was planned.

Main definitions

* `Calculator.Preview.ShowsOnly` — whatever is planned or shown is about a given text;
* `Calculator.Session.PreviewFits` — the invariant.

Main results

* `Calculator.Session.previewFits_step`, `Calculator.Session.previewFits_run` — every action and
  every run keeps it;
* `Calculator.Session.collect_of_awaited` — without an answer there is nothing to collect;
* `Calculator.Session.preview_belongs_to_entry` — what this means for every session.
-/

import Calculator.Session.Action

set_option autoImplicit false

namespace Calculator

/-! ### The preview of a text -/

namespace Preview

/-- Whatever is planned or shown is about the text. -/
structure ShowsOnly (p : Preview) (text : String) : Prop where
  /-- The planned evaluation is that of the text. -/
  plan : ∀ plan, p.plan = some plan → plan.text = text
  /-- No edit or cancellation has come after the plan. -/
  ticket : ∀ plan, p.plan = some plan → plan.ticket = p.current
  /-- The value shown is that of the text. -/
  value : ∀ v, p.value = some v → evaluateText text = .ok v

variable {p : Preview} {text : String}

/-- An edit leaves nothing but the plan for the new text. -/
theorem showsOnly_edit (p : Preview) (text : String) (now : Nat) :
    (p.edit text now).1.ShowsOnly text := by
  constructor
  · intro plan hplan
    obtain rfl := Option.some.inj hplan
    rfl
  · intro plan hplan
    obtain rfl := Option.some.inj hplan
    rfl
  · intro v hv
    cases hv

/-- Where nothing is planned or shown, nothing is about another text. -/
theorem showsOnly_of_none (hplan : p.plan = none) (hvalue : p.value = none) (text : String) :
    p.ShowsOnly text := by
  constructor
  · intro plan h
    simp [hplan] at h
  · intro plan h
    simp [hplan] at h
  · intro v h
    simp [hvalue] at h

theorem showsOnly_cancel (p : Preview) (text : String) : p.cancel.ShowsOnly text :=
  showsOnly_of_none rfl rfl text

/-- A value may be delivered if it is that of the text, whatever the ticket. -/
theorem ShowsOnly.deliver (h : p.ShowsOnly text) (ticket : Ticket) {value : Option Float}
    (hvalue : ∀ v, value = some v → evaluateText text = .ok v) :
    (p.deliver ticket value).1.ShowsOnly text := by
  unfold Preview.deliver
  split
  · exact ⟨h.plan, h.ticket, hvalue⟩
  · exact h

/-- What comes due is what was planned. -/
theorem ShowsOnly.poll (h : p.ShowsOnly text) (now : Nat) : (p.poll now).1.ShowsOnly text := by
  unfold Preview.poll
  split
  · rename_i plan hplan
    split
    · have hrest : ({ p with plan := none } : Preview).ShowsOnly text :=
        ⟨nofun, nofun, h.value⟩
      refine hrest.deliver plan.ticket ?_
      intro v hv
      rw [h.plan plan hplan] at hv
      exact toOption_eq_some_iff.1 hv
    · exact h
  · exact h

/-- When a plan comes due, the value of the text is shown, or none if it has none. -/
theorem ShowsOnly.value_poll (h : p.ShowsOnly text) {plan : Plan} (hplan : p.plan = some plan)
    {now : Nat} (hdue : plan.due ≤ now) :
    (p.poll now).1.value = (evaluateText text).toOption := by
  rw [poll_of_due hplan (h.ticket plan hplan) hdue, h.plan plan hplan]

end Preview

/-! ### The preview of a session -/

namespace Session

/-- Whatever the preview plans or shows is about the entry. -/
def PreviewFits (s : Session) : Prop := s.preview.ShowsOnly s.entry

theorem previewFits_new (settings : Settings) (hasService : Bool) :
    (new settings hasService).PreviewFits := Preview.showsOnly_of_none rfl rfl _

theorem previewFits_entryChanged (s : Session) : s.entryChanged.PreviewFits :=
  Preview.showsOnly_edit _ _ _

variable {s : Session}

theorem PreviewFits.insert (h : s.PreviewFits) (text : String) : (s.insert text).PreviewFits := by
  unfold Session.insert
  split
  · exact previewFits_entryChanged _
  · exact h

theorem PreviewFits.eraseLast (h : s.PreviewFits) : s.eraseLast.PreviewFits := by
  unfold Session.eraseLast
  split
  · exact previewFits_entryChanged _
  · exact h

theorem PreviewFits.load (h : s.PreviewFits) (index : Nat) : (s.load index).PreviewFits := by
  unfold Session.load
  split
  · exact h
  split
  · exact h
  · exact previewFits_entryChanged _

/-- A result takes the place of the entry, and the preview is cancelled; a failure leaves both. -/
theorem PreviewFits.finish (h : s.PreviewFits) (expression : String) (r : Except Failure Float) :
    (s.finish expression r).PreviewFits := by
  cases r with
  | ok v => exact Preview.showsOnly_cancel _ _
  | error e => exact h

theorem PreviewFits.calculate (h : s.PreviewFits) : s.calculate.1.PreviewFits := by
  unfold Session.calculate
  split
  · exact h
  dsimp only
  split
  · exact h.finish _ _
  split
  · exact Preview.showsOnly_cancel _ _
  · exact h.finish _ _

theorem PreviewFits.collect (h : s.PreviewFits) : s.collect.1.PreviewFits := by
  have hended : ({ s with request := none } : Session).PreviewFits := h
  unfold Session.collect
  split
  · exact h
  split
  · exact h
  · exact hended.finish _ _
  · exact hended.finish _ _

theorem PreviewFits.poll (h : s.PreviewFits) : s.poll.1.PreviewFits := by
  have hpolled : ({ s with preview := (s.preview.poll s.clock).1 } : Session).PreviewFits :=
    Preview.ShowsOnly.poll h s.clock
  exact hpolled.collect

/-- An answer waits in the request; nothing else changes. -/
theorem PreviewFits.answer (h : s.PreviewFits) (a : Answer) : (s.answer a).1.PreviewFits := by
  unfold Session.answer
  split
  · exact h
  · exact h

/-- Every action keeps the preview with the entry. -/
theorem previewFits_step (s : Session) (a : Action) (h : s.PreviewFits) :
    (s.step a).1.PreviewFits := by
  cases a with
  | insert text => exact h.insert text
  | type text => exact previewFits_entryChanged _
  | eraseLast => exact h.eraseLast
  | clear => exact Preview.showsOnly_cancel _ _
  | reset => exact Preview.showsOnly_cancel _ _
  | memoryRecall => exact h.insert _
  | load index => exact h.load index
  | poll => exact h.poll
  | calculate => exact h.calculate
  | answer a => exact h.answer a
  -- neither the entry nor the preview is touched
  | focus | memoryAdd | memorySubtract | memoryClear | clearHistory | clock | timeOfDay => exact h

theorem previewFits_run (settings : Settings) (hasService : Bool) (actions : List Action) :
    ((new settings hasService).run actions).PreviewFits :=
  run_induction previewFits_step (previewFits_new settings hasService) actions

/-! ### Polling without an answer -/

/-- Without an answer there is nothing to collect. -/
theorem collect_of_awaited (h : ∀ r, s.request = some r → r.answer = .awaited) :
    s.collect = (s, false) := by
  unfold collect
  split
  · rfl
  · rename_i r hr
    rw [h r hr]

/-- Polling without an answer changes nothing but the preview. -/
theorem poll_of_awaited (h : ∀ r, s.request = some r → r.answer = .awaited) :
    s.poll.1 = { s with preview := (s.preview.poll s.clock).1 } := by
  have hcollect := collect_of_awaited (s := { s with preview := (s.preview.poll s.clock).1 }) h
  rw [poll]
  dsimp only
  rw [hcollect]

/-- **The preview never shows the value of another text.**  In every session, a planned evaluation
is that of the entry, and a value shown is the value of the entry.  Polling without an answer of the
service leaves the entry, the result, the failure, the history and the memory as they are, and if
the plan has come due, it shows the value of the entry. -/
theorem preview_belongs_to_entry (settings : Settings) (hasService : Bool)
    (actions : List Action) :
    let s := (new settings hasService).run actions
    (∀ plan, s.preview.plan = some plan → plan.text = s.entry) ∧
    (∀ v, s.preview.value = some v → evaluateText s.entry = .ok v) ∧
    ((∀ r, s.request = some r → r.answer = .awaited) →
      s.poll.1.entry = s.entry ∧ s.poll.1.result = s.result ∧ s.poll.1.failure = s.failure ∧
      s.poll.1.history = s.history ∧ s.poll.1.memory = s.memory ∧
      ∀ plan, s.preview.plan = some plan → plan.due ≤ s.clock →
        s.poll.1.preview.value = (evaluateText s.entry).toOption) := by
  intro s
  have hfits : s.PreviewFits := previewFits_run settings hasService actions
  refine ⟨hfits.plan, hfits.value, ?_⟩
  intro hawaited
  rw [poll_of_awaited hawaited]
  refine ⟨rfl, rfl, rfl, rfl, rfl, ?_⟩
  intro plan hplan hdue
  exact hfits.value_poll hplan hdue

end Session

end Calculator
