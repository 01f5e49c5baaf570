/-
**The live preview.**

While an expression is being typed, its value is shown as soon as the entry has rested for a while.
Every edit drops the evaluation that was planned and plans a new one; when it comes due, the text
of the edit is evaluated, and any error simply leaves the preview empty.

Edits and cancellations are numbered.  The number of an edit is the ticket under which a value may
be delivered for it, and only the ticket of the latest edit is accepted, so that a value can never
be shown next to a text it does not belong to.

Main definitions

* `Calculator.Preview`, `Calculator.Preview.Plan` — the preview and a planned evaluation;
* `Calculator.Preview.edit`, `Calculator.Preview.poll`, `Calculator.Preview.deliver`,
  `Calculator.Preview.cancel` — its operations.

Main results

* `Calculator.Preview.poll_of_not_due`, `Calculator.Preview.poll_of_due` — before its time a plan is
  left alone, and then it is carried out;
* `Calculator.Preview.deliver_of_stale` — a stale ticket changes nothing.
-/

import Calculator.Expr.Value

set_option autoImplicit false

namespace Calculator

/-- The number of an edit. -/
structure Ticket where
  /-- Which edit or cancellation it was, counted from one. -/
  number : Nat
deriving DecidableEq, Repr

/-- An evaluation that is due at some time. -/
structure Preview.Plan where
  /-- The edit that planned it. -/
  ticket : Ticket
  /-- When it is due, in milliseconds. -/
  due : Nat
  /-- The text to evaluate. -/
  text : String
deriving DecidableEq, Repr

/-- The live preview. -/
structure Preview where
  /-- How long the entry has to rest, in milliseconds. -/
  delay : Nat := 300
  /-- How many edits and cancellations there have been. -/
  generation : Nat := 0
  /-- The planned evaluation. -/
  plan : Option Preview.Plan := none
  /-- The value shown. -/
  value : Option Float := none
deriving DecidableEq, Repr

namespace Preview

/-- The ticket of an edit that is the latest event. -/
def current (p : Preview) : Ticket := ⟨p.generation⟩

/-- An edit at some time: whatever was planned or shown is dropped and a new evaluation planned.
Gives the ticket of the edit as well. -/
def edit (p : Preview) (text : String) (now : Nat) : Preview × Ticket :=
  let ticket : Ticket := ⟨p.generation + 1⟩
  ({ p with
      generation := p.generation + 1
      plan := some ⟨ticket, now + p.delay, text⟩
      value := none },
    ticket)

/-- Delivers a value, or the lack of one, for an edit; says whether it was accepted. -/
def deliver (p : Preview) (ticket : Ticket) (value : Option Float) : Preview × Bool :=
  if ticket = p.current then ({ p with value }, true) else (p, false)

/-- Evaluates what is due at some time; says whether anything was. -/
def poll (p : Preview) (now : Nat) : Preview × Bool :=
  match p.plan with
  | some plan =>
      if plan.due ≤ now then
        { p with plan := none }.deliver plan.ticket (evaluateText plan.text).toOption
      else (p, false)
  | none => (p, false)

/-- Drops the plan, the value and all tickets. -/
def cancel (p : Preview) : Preview :=
  { p with generation := p.generation + 1, plan := none, value := none }

/-- When the planned evaluation is due. -/
def due? (p : Preview) : Option Nat := p.plan.map (·.due)

/-- Without a plan nothing is due. -/
theorem poll_of_no_plan {p : Preview} (h : p.plan = none) (now : Nat) :
    p.poll now = (p, false) := by
  simp [poll, h]

/-- Before its time a plan is left alone. -/
theorem poll_of_not_due {p : Preview} {plan : Plan} (h : p.plan = some plan) {now : Nat}
    (hn : now < plan.due) : p.poll now = (p, false) := by
  simp [poll, h, Nat.not_le.2 hn]

/-- When it is due, a plan under the latest ticket is carried out. -/
theorem poll_of_due {p : Preview} {plan : Plan} (h : p.plan = some plan)
    (ht : plan.ticket = p.current) {now : Nat} (hn : plan.due ≤ now) :
    p.poll now =
      ({ p with plan := none, value := (evaluateText plan.text).toOption }, true) := by
  have hcurrent : plan.ticket = ({ p with plan := none } : Preview).current := ht
  simp [poll, h, hn, deliver, hcurrent]

/-- A stale ticket changes nothing. -/
theorem deliver_of_stale {p : Preview} {ticket : Ticket} (h : ticket ≠ p.current)
    (value : Option Float) : p.deliver ticket value = (p, false) := by
  simp [deliver, h]

/-- The latest ticket is accepted. -/
theorem deliver_current (p : Preview) (value : Option Float) :
    p.deliver p.current value = ({ p with value }, true) := by
  simp [deliver]

end Preview

end Calculator
