/-
**The session.**

A session is the calculator without its screen: the entry being typed, the last result or the
failure that stands in its place, the history, the memory, the preview, and a request to the
evaluation service while one is under way.

Three rules hold the operations together.  At most one request is under way at a time.  A failure
stays, and input is refused, until it is cleared; the entry that failed stays as well.  And every
change of the entry either plans a new preview or cancels the old one.

Nothing happens behind the back of a session.  The time of the preview's clock and the time of day
are set from outside, and an answer of the service first lies in the request, where the next poll
finds it.

Main definitions

* `Calculator.Session`, `Calculator.Request` — the state;
* `Calculator.Session.new` — the session of some settings;
* `Calculator.Session.insert`, `Calculator.Session.setEntry`, `Calculator.Session.eraseLast`,
  `Calculator.Session.clear`, `Calculator.Session.reset`, `Calculator.Session.load`, … — editing;
* `Calculator.Session.calculate`, `Calculator.Session.poll`, `Calculator.Session.answer` —
  calculating;
* `Calculator.Session.asksService` — whether a calculation goes to the service.

Main results

* `Calculator.Session.calculate_of_request`, `Calculator.Session.calculate_of_failure` — while a
  request is under way or a failure stands, nothing is calculated.
-/

import Calculator.Blank
import Calculator.Entry
import Calculator.Expr.Canonical
import Calculator.History
import Calculator.Memory
import Calculator.Number.Text
import Calculator.Preview
import Calculator.Settings

set_option autoImplicit false

namespace Calculator

/-! ### State -/

/-- What has become of a request. -/
inductive Answer where
  /-- The service has not answered yet. -/
  | awaited
  /-- The service has answered. -/
  | arrived (reply : Except ServiceError Float)
  /-- The request ended without an answer. -/
  | lost

/-- A request to the service. -/
structure Request where
  /-- The expression as it was entered, without blanks at its ends. -/
  expression : String
  /-- The same expression as a tree. -/
  tree : Expr
  /-- What has become of the request. -/
  answer : Answer := .awaited

/-- The calculator without its screen. -/
structure Session where
  /-- The expression being typed. -/
  entry : String := ""
  /-- The last result. -/
  result : Option Float := none
  /-- The failure that blocks input until it is cleared. -/
  failure : Option Failure := none
  /-- The latest results. -/
  history : History
  /-- The memory register. -/
  memory : Memory := {}
  /-- The live preview. -/
  preview : Preview
  /-- Where expressions are evaluated. -/
  mode : Mode
  /-- Whether there is a service to ask. -/
  hasService : Bool
  /-- The request under way. -/
  request : Option Request := none
  /-- The preview's clock, in milliseconds. -/
  clock : Nat := 0
  /-- The time of day that a new result is marked with. -/
  timeOfDay : String := ""
  /-- Whether the entry field is to take the keyboard. -/
  wantsFocus : Bool := true

namespace Session

/-- A new session.  The preview waits as the settings say, and the history is as long. -/
def new (settings : Settings) (hasService : Bool) : Session where
  history := History.empty settings.historyCapacity
  preview := { delay := settings.previewDelay }
  mode := settings.mode
  hasService := hasService

/-! ### Views -/

/-- Input is refused while a request is under way and while a failure stands. -/
def inputAllowed (s : Session) : Bool := s.request.isNone && s.failure.isNone

/-- The value of the entry, if it has one. -/
def currentValue (s : Session) : Option Float := (evaluateText s.entry).toOption

/-- How long until the preview is due. -/
def wakeAfter (s : Session) : Option Nat := s.preview.due?.map (· - s.clock)

/-! ### Editing -/

/-- Plans the preview of the entry as it is now. -/
def entryChanged (s : Session) : Session :=
  { s with preview := (s.preview.edit s.entry s.clock).1 }

/-- Puts a text at the end of the entry. -/
def insert (s : Session) (text : String) : Session :=
  if s.inputAllowed then
    { { s with entry := s.entry ++ text }.entryChanged with wantsFocus := true }
  else s

/-- Replaces the entry, as typing in the field does. -/
def setEntry (s : Session) (text : String) : Session := { s with entry := text }.entryChanged

/-- Erases the last symbol of the entry. -/
def eraseLast (s : Session) : Session :=
  if s.inputAllowed && !s.entry.isEmpty then
    { { s with entry := String.ofList (eraseLastSymbol s.entry.toList) }.entryChanged with
      wantsFocus := true }
  else s

/-- Empties the entry and lifts the failure. -/
def clear (s : Session) : Session :=
  { s with entry := "", failure := none, preview := s.preview.cancel, wantsFocus := true }

/-- Empties the entry, lifts the failure and forgets the result. -/
def reset (s : Session) : Session := { s.clear with result := none }

/-! ### Memory -/

/-- Adds the value of the entry to the memory. -/
def memoryAdd (s : Session) : Session := { s with memory := s.memory.add s.currentValue }

/-- Subtracts the value of the entry from the memory. -/
def memorySubtract (s : Session) : Session := { s with memory := s.memory.subtract s.currentValue }

/-- The text that stands for a number within an expression: in parentheses if it is negative. -/
def operandText (v : Float) : String :=
  if v < 0 then "(" ++ entryText v ++ ")" else entryText v

/-- Inserts the number in the memory. -/
def memoryRecall (s : Session) : Session := s.insert (operandText s.memory.value)

/-- Empties the memory. -/
def memoryClear (s : Session) : Session := { s with memory := s.memory.clear }

/-! ### History -/

/-- Puts the expression of a result back into the entry and lifts the failure. -/
def load (s : Session) (index : Nat) : Session :=
  if s.request.isSome then s
  else
    match s.history.get? index with
    | none => s
    | some item =>
        { { s with entry := item.expression, failure := none }.entryChanged with
          wantsFocus := true }

/-- Empties the history. -/
def clearHistory (s : Session) : Session := { s with history := s.history.clear }

/-! ### Calculating -/

/-- Ends a calculation: a result goes to the history and takes the place of the entry, a failure
stands. -/
def finish (s : Session) (expression : String) : Except Failure Float → Session
  | .ok v =>
      { s with
        history := s.history.add ⟨expression, v, s.timeOfDay⟩
        result := some v
        entry := entryText v
        failure := none
        preview := s.preview.cancel
        wantsFocus := true }
  | .error e => { s with failure := some e, wantsFocus := true }

/-- The value of a tree, as the outcome of a calculation. -/
def evaluated (tree : Expr) : Except Failure Float := tree.evaluate.mapError .arithmetic

/-- Whether a calculation goes to the service. -/
def asksService (s : Session) : Bool := s.hasService && s.mode != .builtIn

/-- Calculates the entry without the blanks at its ends, or starts to: gives the text that the
service is asked, if it is. -/
def calculate (s : Session) : Session × Option String :=
  if s.request.isSome || s.failure.isSome then (s, none)
  else
    let expression := trim s.entry
    match Expr.ofText expression with
    | .error e => (s.finish expression (.error e), none)
    | .ok tree =>
        if s.asksService then
          ({ s with preview := s.preview.cancel, request := some { expression, tree } },
            some tree.canonicalText)
        else (s.finish expression (evaluated tree), none)

/-- What an answer means for a calculation, given where the expression may be evaluated instead. -/
def outcome (mode : Mode) (tree : Expr) : Except ServiceError Float → Except Failure Float
  | .ok v => .ok v
  | .error e => if mode = .serviceOrBuiltIn then evaluated tree else .error (.service e)

/-- Ends the request if its answer is there; says whether it was. -/
def collect (s : Session) : Session × Bool :=
  match s.request with
  | none => (s, false)
  | some request =>
      match request.answer with
      | .awaited => (s, false)
      | .arrived reply =>
          ({ s with request := none }.finish request.expression
            (outcome s.mode request.tree reply), true)
      | .lost =>
          ({ s with request := none }.finish request.expression
            (outcome s.mode request.tree (.error .unavailable)), true)

/-- Evaluates a due preview and collects an answer that is there; says whether anything changed. -/
def poll (s : Session) : Session × Bool :=
  let (preview, previewed) := s.preview.poll s.clock
  let (s, collected) := { s with preview }.collect
  (s, previewed || collected)

/-- The service answers the request, or the request is lost; says whether it was awaited. -/
def answer (s : Session) (a : Answer) : Session × Bool :=
  match s.request with
  | some { expression, tree, answer := .awaited } =>
      ({ s with request := some { expression, tree, answer := a } }, true)
  | _ => (s, false)

/-- While a request is under way nothing is calculated. -/
theorem calculate_of_request {s : Session} (h : s.request.isSome) : s.calculate = (s, none) := by
  simp [calculate, h]

/-- While a failure stands nothing is calculated. -/
theorem calculate_of_failure {s : Session} (h : s.failure.isSome) : s.calculate = (s, none) := by
  simp [calculate, h]

end Session

end Calculator
