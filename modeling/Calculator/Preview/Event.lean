/-
**What can happen to a preview.**

A preview is edited, polled, given values and cancelled, in any order and at any times.  Each of
these events reports something to whoever caused it: an edit its ticket, a poll whether anything was
evaluated, a delivery whether it was accepted.  The course of a preview keeps its events with their
reports, the latest first, so that what the preview does next can be compared with what has been
seen of it so far.

Main definitions

* `Calculator.Preview.Event`, `Calculator.Preview.Report` — events and what they report;
* `Calculator.Preview.step` — one event;
* `Calculator.Preview.Course`, `Calculator.Preview.course` — a preview with its past, and the course
  that a list of events gives a new preview.

Main results

* `Calculator.Preview.course_induction` — what is true at the start, and stays true with every
  event, is true of every course.
-/

import Calculator.Preview

set_option autoImplicit false

namespace Calculator.Preview

/-- What can happen to a preview. -/
inductive Event where
  /-- The entry is edited at some time. -/
  | edit (text : String) (now : Nat)
  /-- What is due at some time is evaluated. -/
  | poll (now : Nat)
  /-- A value, or the lack of one, is delivered for an edit. -/
  | deliver (ticket : Ticket) (value : Option Float)
  | cancel

/-- What an event reports. -/
inductive Report where
  | nothing
  /-- The ticket of an edit. -/
  | issued (ticket : Ticket)
  /-- Whether anything was evaluated. -/
  | polled (evaluated : Bool)
  /-- Whether a delivery was accepted. -/
  | delivered (accepted : Bool)
deriving DecidableEq, Repr

/-- One event. -/
def step (p : Preview) : Event → Preview × Report
  | .edit text now => let (p, ticket) := p.edit text now; (p, .issued ticket)
  | .poll now => let (p, evaluated) := p.poll now; (p, .polled evaluated)
  | .deliver ticket value =>
      let (p, accepted) := p.deliver ticket value
      (p, .delivered accepted)
  | .cancel => (p.cancel, .nothing)

/-- An event with its report. -/
structure Occurrence where
  event : Event
  report : Report

/-- A preview with its past. -/
structure Course where
  preview : Preview
  /-- What has happened, the latest first. -/
  past : List Occurrence

/-- The course after another event. -/
def Course.next (c : Course) (e : Event) : Course where
  preview := (c.preview.step e).1
  past := ⟨e, (c.preview.step e).2⟩ :: c.past

/-- The course of a new preview under a list of events. -/
def course (delay : Nat) (events : List Event) : Course :=
  events.foldl Course.next ⟨{ delay }, []⟩

/-- Courses compose. -/
theorem course_append (delay : Nat) (first second : List Event) :
    course delay (first ++ second) = second.foldl Course.next (course delay first) := by
  simp [course]

/-- What is true at the start, and stays true with every event, is true of every course. -/
theorem course_induction {P : Course → Prop} {delay : Nat} (hstart : P ⟨{ delay }, []⟩)
    (hnext : ∀ c e, P c → P (c.next e)) (events : List Event) : P (course delay events) := by
  have key : ∀ c, P c → P (events.foldl Course.next c) := by
    induction events with
    | nil => exact fun _ hc => hc
    | cons e events ih => exact fun c hc => ih (c.next e) (hnext c e hc)
  exact key _ hstart

end Calculator.Preview
