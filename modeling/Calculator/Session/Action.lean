/-
**What can happen to a session.**

Every way to change a session is an action: a key, typing, the clock, an answer of the service.  The
effect of an action is what it reports beside the new session.  A run of a session is a list of
actions, and its trace keeps for each of them the session that it found.

Main definitions

* `Calculator.Action`, `Calculator.Effect` — actions and what they report;
* `Calculator.Session.step`, `Calculator.Session.run` — one action, and a list of them;
* `Calculator.Moment`, `Calculator.Session.trace` — an action with the session that it is done to,
  and those of a run.

Main results

* `Calculator.Session.run_append`, `Calculator.Session.trace_append` — runs compose, and so do their
  traces;
* `Calculator.Session.run_induction` — what every action keeps, every run keeps;
* `Calculator.Session.trace_induction` — the same, for what is true of a session and its past.
-/

import Calculator.Session

set_option autoImplicit false

namespace Calculator

/-- What can happen to a session. -/
inductive Action where
  /-- A text is put at the end of the entry. -/
  | insert (text : String)
  /-- The entry is replaced by typing. -/
  | type (text : String)
  /-- The entry field is to take the keyboard, or not. -/
  | focus (wanted : Bool)
  | eraseLast
  | clear
  | reset
  | memoryAdd
  | memorySubtract
  | memoryRecall
  | memoryClear
  /-- The expression of a result is put back into the entry. -/
  | load (index : Nat)
  | clearHistory
  /-- The preview's clock is set. -/
  | clock (now : Nat)
  /-- The time of day is set, as a text. -/
  | timeOfDay (text : String)
  /-- What is due is done. -/
  | poll
  | calculate
  /-- The service answers, or the request is lost. -/
  | answer (a : Answer)

/-- What an action reports. -/
inductive Effect where
  | nothing
  /-- Whether polling changed anything. -/
  | polled (changed : Bool)
  /-- The text that the service is asked, if it is. -/
  | asked (canonical : Option String)
  /-- Whether an answer was awaited. -/
  | answered (awaited : Bool)
deriving DecidableEq, Repr

namespace Session

/-- One action. -/
def step (s : Session) : Action → Session × Effect
  | .insert text => (s.insert text, .nothing)
  | .type text => (s.setEntry text, .nothing)
  | .focus wanted => ({ s with wantsFocus := wanted }, .nothing)
  | .eraseLast => (s.eraseLast, .nothing)
  | .clear => (s.clear, .nothing)
  | .reset => (s.reset, .nothing)
  | .memoryAdd => (s.memoryAdd, .nothing)
  | .memorySubtract => (s.memorySubtract, .nothing)
  | .memoryRecall => (s.memoryRecall, .nothing)
  | .memoryClear => (s.memoryClear, .nothing)
  | .load index => (s.load index, .nothing)
  | .clearHistory => (s.clearHistory, .nothing)
  | .clock now => ({ s with clock := now }, .nothing)
  | .timeOfDay text => ({ s with timeOfDay := text }, .nothing)
  | .poll => let (s, changed) := s.poll; (s, .polled changed)
  | .calculate => let (s, canonical) := s.calculate; (s, .asked canonical)
  | .answer a => let (s, awaited) := s.answer a; (s, .answered awaited)

/-- A list of actions. -/
def run (s : Session) (actions : List Action) : Session :=
  actions.foldl (fun s a => (s.step a).1) s

@[simp] theorem run_nil (s : Session) : s.run [] = s := rfl

@[simp] theorem run_cons (s : Session) (a : Action) (actions : List Action) :
    s.run (a :: actions) = (s.step a).1.run actions := rfl

/-- Runs compose. -/
theorem run_append (s : Session) (first second : List Action) :
    s.run (first ++ second) = (s.run first).run second := by
  simp [run, List.foldl_append]

/-- What every action keeps, every run keeps. -/
theorem run_induction {P : Session → Prop} (hstep : ∀ s a, P s → P (s.step a).1) {s : Session}
    (h : P s) (actions : List Action) : P (s.run actions) := by
  induction actions generalizing s with
  | nil => exact h
  | cons a actions ih => exact ih (hstep s a h)

end Session

/-- An action, and the session that it is done to. -/
structure Moment where
  session : Session
  action : Action

namespace Session

/-- The moments of a run, in their order. -/
def trace (s : Session) : List Action → List Moment
  | [] => []
  | a :: actions => ⟨s, a⟩ :: (s.step a).1.trace actions

@[simp] theorem trace_nil (s : Session) : s.trace [] = [] := rfl

@[simp] theorem trace_cons (s : Session) (a : Action) (actions : List Action) :
    s.trace (a :: actions) = ⟨s, a⟩ :: (s.step a).1.trace actions := rfl

/-- The moments of a run are those of its first part and then those of the rest. -/
theorem trace_append (s : Session) (first second : List Action) :
    s.trace (first ++ second) = s.trace first ++ (s.run first).trace second := by
  induction first generalizing s with
  | nil => rfl
  | cons a first ih => simp [ih]

/-- What is true at the start, and stays true when an action joins the past, is true after every
run. -/
theorem trace_induction {P : List Moment → Session → Prop}
    (hstep : ∀ past s a, P past s → P (past ++ [⟨s, a⟩]) (s.step a).1) {s : Session} (h : P [] s)
    (actions : List Action) : P (s.trace actions) (s.run actions) := by
  -- the past grows while the induction takes actions off the front
  have key : ∀ past s, P past s → P (past ++ s.trace actions) (s.run actions) := by
    induction actions with
    | nil =>
        intro past s hpast
        simpa using hpast
    | cons a actions ih =>
        intro past s hpast
        have hrun := ih (past ++ [⟨s, a⟩]) (s.step a).1 (hstep past s a hpast)
        rwa [List.append_assoc] at hrun
  simpa using key [] s h

end Session

end Calculator
