/-
**An entry has one value.**

The equals key, the preview and the memory keys each evaluate the entry on their own: the key takes
the blanks off its ends first, the preview evaluates the text of an edit when it comes due, and the
memory keys take the entry as it is.  All three come to the same value or to none, because the
blanks at the ends are neither in the tokens of a text nor in what its symbols look at.

A due preview is one whose plan is for the entry, under the latest ticket, and whose time has come.
Every edit plans one, and in a session no other plan ever comes due.

Main definitions

* `Calculator.Preview.IsDue` — the evaluation of a text is planned, and its time has come.

Main results

* `Calculator.Preview.IsDue.value_poll` — a due preview shows the value of its text;
* `Calculator.Session.succeeds_calculate_iff` — calculating in the program itself succeeds with the
  value of the entry;
* `Calculator.Session.entry_has_one_value` — the equals key, the preview and the memory keys agree.
-/

import Calculator.Proofs.PreviewOfEntry
import Calculator.Proofs.Requests
import Calculator.Proofs.Trimming

set_option autoImplicit false

namespace Calculator

/-! ### Due previews -/

namespace Preview

/-- The evaluation of the text is planned under the latest ticket, and its time has come. -/
def IsDue (p : Preview) (text : String) (now : Nat) : Prop :=
  ∃ due ≤ now, p.plan = some ⟨p.current, due, text⟩

variable {p : Preview} {text : String} {now : Nat}

/-- A due preview shows the value of its text, or nothing if the text has none. -/
theorem IsDue.value_poll (h : p.IsDue text now) :
    (p.poll now).1.value = (evaluateText text).toOption := by
  obtain ⟨due, hdue, hplan⟩ := h
  rw [poll_of_due hplan rfl hdue]

/-- After an edit the preview of the new text is due as soon as the text has rested. -/
theorem isDue_edit (p : Preview) (text : String) {later : Nat} (h : now + p.delay ≤ later) :
    (p.edit text now).1.IsDue text later :=
  ⟨now + p.delay, h, rfl⟩

/-- Where whatever is planned is about a text, what comes due is the preview of this text. -/
theorem ShowsOnly.isDue (h : p.ShowsOnly text) {plan : Plan} (hplan : p.plan = some plan)
    (hdue : plan.due ≤ now) : p.IsDue text now := by
  refine ⟨plan.due, hdue, ?_⟩
  rw [hplan, ← h.ticket plan hplan, ← h.plan plan hplan]

end Preview

namespace Session

variable {s : Session} {v : Float}

/-! ### The equals key -/

/-- A calculation that ends succeeds with a value if this is what it ends with. -/
theorem succeeds_finish_iff {expression : String} {r : Except Failure Float} :
    s.Succeeds (s.finish expression r) expression v ↔ r = .ok v := by
  constructor
  · intro h
    cases r with
    | ok w =>
        obtain rfl : w = v := Option.some.inj h.result
        rfl
    | error f => cases h.failure
  · rintro rfl
    exact ⟨rfl, History.head?_items_add _ _, rfl, rfl, rfl⟩

/-- Calculating in the program itself succeeds with the value of the entry, if it has one. -/
theorem succeeds_calculate_iff (hmode : s.mode = .builtIn) (hinput : s.inputAllowed = true) :
    s.Succeeds s.calculate.1 (trim s.entry) v ↔ s.currentValue = some v := by
  have hasks : s.asksService = false := by simp [asksService, hmode]
  cases s.calculates with
  | refused hrefused _ => simp [hinput] at hrefused
  | ended _ _ hs =>
      rw [hs, succeeds_finish_iff, evaluateText_trim_eq_ok, currentValue, toOption_eq_some_iff]
  | asked _ hservice _ _ _ => simp [hasks] at hservice

/-! ### Agreement -/

/-- **An entry has one value.**  A text writes the expression that it writes without the blanks at
its ends, or is refused for the same reason, only placed further on by the blanks in front.  So
where the program itself evaluates and input is allowed, calculating succeeds with exactly the value
that the memory keys find in the entry, and with exactly the value that a due preview of the entry
shows.  The preview of an edit is due after the delay, and what comes due in a session is always the
preview of its entry. -/
theorem entry_has_one_value :
    (∀ text, Expr.ofText text =
      (Expr.ofText (trim text)).mapError (Failure.shift (text.toList.takeWhile isBlank).length)) ∧
    (∀ s : Session, s.mode = .builtIn → s.inputAllowed = true → ∀ v,
      (s.Succeeds s.calculate.1 (trim s.entry) v ↔ s.currentValue = some v) ∧
      ∀ (p : Preview) now, p.IsDue s.entry now →
        (s.Succeeds s.calculate.1 (trim s.entry) v ↔ (p.poll now).1.value = some v)) ∧
    (∀ (p : Preview) text now later, now + p.delay ≤ later →
      (p.edit text now).1.IsDue text later) ∧
    ∀ settings hasService actions, let s := (new settings hasService).run actions;
      ∀ plan, s.preview.plan = some plan → plan.due ≤ s.clock →
        s.preview.IsDue s.entry s.clock := by
  refine ⟨exprOfText_eq_mapError_trim, ?_, fun p text now later h => p.isDue_edit text h, ?_⟩
  · intro s hmode hinput v
    refine ⟨succeeds_calculate_iff hmode hinput, ?_⟩
    intro p now hdue
    rw [succeeds_calculate_iff hmode hinput, hdue.value_poll, currentValue]
  · intro settings hasService actions s plan hplan hdue
    exact (previewFits_run settings hasService actions).isDue hplan hdue

/-- With blanks around a root of `π`, all three come to the same value after the default delay. -/
theorem entry_has_one_value_root :
    let s := (new {} false).run [.type " √(π)\u00a0", .clock 300];
    let v := Constant.pi.value.sqrt;
    s.mode = .builtIn ∧ s.inputAllowed = true ∧ trim s.entry = "√(π)" ∧ s.currentValue = some v ∧
      s.Succeeds s.calculate.1 (trim s.entry) v ∧ s.preview.IsDue s.entry s.clock ∧
        (s.preview.poll s.clock).1.value = some v := by
  intro s v
  have hvalue : s.currentValue = some v := by decide +kernel
  obtain ⟨-, hagree, hedit, -⟩ := entry_has_one_value
  have hdue : s.preview.IsDue s.entry s.clock :=
    hedit (new {} false).preview s.entry 0 300 (by decide)
  obtain ⟨hmemory, hpreview⟩ := hagree s rfl rfl v
  have hsucceeds := hmemory.2 hvalue
  have htrim : trim " √(π)\u00a0" = "√(π)" := rfl
  exact ⟨rfl, rfl, htrim, hvalue, hsucceeds, hdue, (hpreview _ _ hdue).1 hsucceeds⟩

end Session

end Calculator
