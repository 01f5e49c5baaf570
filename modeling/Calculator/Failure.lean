/-
**What can go wrong.**

A calculation fails for one of four reasons: a character of the text belongs to no symbol, the
symbols do not form an expression, the expression has no finite value, or the evaluation service
gave no answer.  A failure is a value that the session keeps and the screen describes; the wording
lives in one function for each kind.

Main definitions

* `Calculator.LexicalError`, `Calculator.SyntaxError`, `Calculator.ArithmeticError`,
  `Calculator.ServiceError` — the four kinds;
* `Calculator.Failure` — any of them, with `Calculator.Failure.message`.

Main results

* `Calculator.bind_eq_ok`, `Calculator.bind_eq_error` — two steps succeed if the first does and the
  second does after it; they fail if one of them does;
* `Calculator.toOption_eq_some_iff` — the value of a step that succeeds.
-/

set_option autoImplicit false

namespace Calculator

/-! ### The four kinds -/

/-- A character that belongs to no symbol. -/
structure LexicalError where
  /-- Where it stands in the text, counted in characters from zero. -/
  position : Nat
  /-- The character. -/
  character : Char
deriving DecidableEq, Repr

/-- The same error seen from `n` characters further to the left. -/
def LexicalError.shift (n : Nat) (e : LexicalError) : LexicalError := ⟨n + e.position, e.character⟩

@[simp] theorem LexicalError.position_shift (n : Nat) (e : LexicalError) :
    (e.shift n).position = n + e.position := rfl

@[simp] theorem LexicalError.character_shift (n : Nat) (e : LexicalError) :
    (e.shift n).character = e.character := rfl

/-- A list of tokens that is no expression, or one too deep to be handled. -/
inductive SyntaxError where
  /-- There are no tokens. -/
  | emptyExpression
  /-- An operand is missing, or something follows the expression. -/
  | unexpectedToken
  /-- A parenthesis has no partner, or a function has no argument in parentheses. -/
  | unclosedParen
  /-- The nesting or the height of the expression exceeds its bound. -/
  | tooDeep
deriving DecidableEq, Repr

/-- An expression without a finite value. -/
inductive ArithmeticError where
  /-- The divisor is zero. -/
  | divisionByZero
  /-- The argument lies outside the domain of the function. -/
  | outOfDomain
  /-- The value is infinite or undefined. -/
  | notFinite
deriving DecidableEq, Repr

/-- An evaluation service that gave no usable answer. -/
inductive ServiceError where
  /-- The service could not be reached. -/
  | transport (reason : String)
  /-- The service answered with a status other than success. -/
  | status (code : Nat)
  /-- The body of the answer was not understood. -/
  | invalidReply (reason : String)
  /-- The request ended without any answer. -/
  | unavailable
deriving DecidableEq, Repr

/-- Why a calculation has no result. -/
inductive Failure where
  | lexical (e : LexicalError)
  | syntactic (e : SyntaxError)
  | arithmetic (e : ArithmeticError)
  | service (e : ServiceError)
deriving DecidableEq, Repr

/-! ### Steps that may fail -/

@[simp] theorem ok_bind {ε α β : Type} (a : α) (f : α → Except ε β) :
    (Except.ok a >>= f) = f a := rfl

@[simp] theorem error_bind {ε α β : Type} (e : ε) (f : α → Except ε β) :
    (Except.error e >>= f) = .error e := rfl

/-- Two steps succeed if the first does and the second does after it. -/
theorem bind_eq_ok {ε α β : Type} {x : Except ε α} {f : α → Except ε β} {b : β} :
    (x >>= f) = .ok b ↔ ∃ a, x = .ok a ∧ f a = .ok b := by
  cases x with
  | ok a => simp
  | error e => simp

/-- Two steps fail if the first does, or the second does after it. -/
theorem bind_eq_error {ε α β : Type} {x : Except ε α} {f : α → Except ε β} {e : ε} :
    (x >>= f) = .error e ↔ x = .error e ∨ ∃ a, x = .ok a ∧ f a = .error e := by
  cases x with
  | ok a => simp
  | error e => simp

/-- A step succeeds if its result has a value. -/
theorem toOption_eq_some_iff {ε α : Type} {x : Except ε α} {a : α} :
    x.toOption = some a ↔ x = .ok a := by
  cases x <;> simp [Except.toOption]

/-! ### Wording -/

/-- The character at fault and its position. -/
def LexicalError.message (e : LexicalError) : String :=
  "caractère inattendu '" ++ e.character.toString ++ "' à la position " ++ toString e.position

/-- The wording of a syntax error. -/
def SyntaxError.message : SyntaxError → String
  | .emptyExpression => "expression vide"
  | .unexpectedToken => "jeton inattendu (opérande manquant ?)"
  | .unclosedParen => "parenthèses non fermées"
  | .tooDeep => "expression trop imbriquée"

/-- The wording of an arithmetic error. -/
def ArithmeticError.message : ArithmeticError → String
  | .divisionByZero => "division par zéro"
  | .outOfDomain => "hors domaine"
  | .notFinite => "résultat non fini"

/-- The wording of a service error. -/
def ServiceError.message : ServiceError → String
  | .transport reason => "service injoignable: " ++ reason
  | .status code => "service: statut HTTP " ++ toString code
  | .invalidReply reason => "service: réponse invalide (" ++ reason ++ ")"
  | .unavailable => "service indisponible"

/-- The wording of any failure, as the screen shows it. -/
def Failure.message : Failure → String
  | .lexical e => e.message
  | .syntactic e => e.message
  | .arithmetic e => e.message
  | .service e => e.message

end Calculator
