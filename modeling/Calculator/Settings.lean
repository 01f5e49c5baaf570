/-
**Settings.**

The settings choose where expressions are evaluated, how long the preview waits, how many results
the history keeps, and how the evaluation service is reached.  Every number that comes from outside
is clamped to a range in which the program stays responsive.

Main definitions

* `Calculator.Mode` — where an expression is evaluated;
* `Calculator.Settings`, `Calculator.Settings.bounded` — the settings, and the same within bounds;
* `Calculator.Settings.usesService` — whether the service takes part.

Main results

* `Calculator.Settings.bounded_bounded` — clamping twice is clamping once.
-/

set_option autoImplicit false

namespace Calculator

/-- Where an expression is evaluated. -/
inductive Mode where
  /-- In the program itself. -/
  | builtIn
  /-- By the service alone. -/
  | service
  /-- By the service, and in the program itself if the service gives no answer. -/
  | serviceOrBuiltIn
deriving DecidableEq, Repr

/-- The settings; times are in milliseconds. -/
structure Settings where
  /-- How long the entry has to rest before the preview is computed. -/
  previewDelay : Nat := 300
  /-- How many results the history keeps. -/
  historyCapacity : Nat := 10
  /-- Where an expression is evaluated. -/
  mode : Mode := .builtIn
  /-- The address of the service. -/
  serviceUrl : String := "https://calculator-backend-ve6x.onrender.com/calculate"
  /-- How long an answer of the service is awaited. -/
  timeout : Nat := 5000
deriving DecidableEq, Repr

namespace Settings

/-- A number moved into a range. -/
def clamp (low high n : Nat) : Nat := max low (min high n)

theorem clamp_clamp {low high : Nat} (h : low ≤ high) (n : Nat) :
    clamp low high (clamp low high n) = clamp low high n := by
  unfold clamp
  omega

/-- The settings with every number moved into its range. -/
def bounded (s : Settings) : Settings :=
  { s with
    historyCapacity := clamp 1 1000 s.historyCapacity
    previewDelay := min 10000 s.previewDelay
    timeout := clamp 100 60000 s.timeout }

/-- Clamping twice is clamping once. -/
theorem bounded_bounded (s : Settings) : s.bounded.bounded = s.bounded := by
  have h := @clamp_clamp 1 1000 (by decide) s.historyCapacity
  have t := @clamp_clamp 100 60000 (by decide) s.timeout
  simp only [bounded, h, t]
  congr 1
  omega

/-- Whether the service takes part in evaluation. -/
def usesService (s : Settings) : Bool := s.mode != .builtIn

end Settings

end Calculator
