/-
**Tokens.**

A token is one symbol of an expression.  Several spellings stand for the same token: the keypad
writes `×`, `÷`, `−` and `²` where a keyboard has `*`, `/`, `-` and `^2`, and names may be typed in
any letter case.  A number keeps the text it was typed as, since its value is only needed when the
expression is evaluated.

Main definitions

* `Calculator.Function`, `Calculator.Constant` — the named functions and constants;
* `Calculator.Token` — a symbol;
* `Calculator.Token.ofSymbol?`, `Calculator.Token.ofWord?` — the token that a single character or a
  word spells;
* `Calculator.tokensText` — a list of tokens as text, one space between two of them.

Main results

* `Calculator.Token.ofWord?_name`, `Calculator.Token.ofWord?_constant_name` — names spell
  themselves.
-/

set_option autoImplicit false

namespace Calculator

/-! ### Functions and constants -/

/-- The functions of the keypad; angles are in degrees. -/
inductive Function where
  | sin
  | cos
  | tan
  | sqrt
deriving DecidableEq, Repr

/-- The name of a function, in lower case. -/
def Function.name : Function → List Char
  | .sin => ['s', 'i', 'n']
  | .cos => ['c', 'o', 's']
  | .tan => ['t', 'a', 'n']
  | .sqrt => ['s', 'q', 'r', 't']

/-- The constants of the keypad. -/
inductive Constant where
  | pi
  | e
deriving DecidableEq, Repr

/-- The name of a constant, in lower case. -/
def Constant.name : Constant → List Char
  | .pi => ['p', 'i']
  | .e => ['e']

/-- The double nearest to a constant. -/
def Constant.value : Constant → Float
  | .pi => Float.ofBits 0x400921fb54442d18
  | .e => Float.ofBits 0x4005bf0a8b145769

/-! ### Tokens -/

/-- One symbol of an expression. -/
inductive Token where
  /-- A number, as it was typed. -/
  | number (text : String)
  | plus
  | minus
  | times
  | divide
  /-- The percent sign, written after its operand. -/
  | percent
  /-- The square marker, written after its operand. -/
  | square
  | leftParen
  | rightParen
  | function (f : Function)
  | constant (k : Constant)
deriving DecidableEq, Repr

namespace Token

/-- The token that a character spells all by itself. -/
def ofSymbol? : Char → Option Token
  | '(' => some leftParen
  | ')' => some rightParen
  | '+' => some plus
  | '-' => some minus
  | '−' => some minus
  | '*' => some times
  | '×' => some times
  | '/' => some divide
  | '÷' => some divide
  | '%' => some percent
  | '²' => some square
  | _ => none

/-- The token that a word spells, in any letter case. -/
def ofWord? (word : List Char) : Option Token :=
  match word.map Char.toLower with
  | ['s', 'i', 'n'] => some (function .sin)
  | ['c', 'o', 's'] => some (function .cos)
  | ['t', 'a', 'n'] => some (function .tan)
  | ['s', 'q', 'r', 't'] => some (function .sqrt)
  | ['p', 'i'] => some (constant .pi)
  | ['e'] => some (constant .e)
  | _ => none

/-- The name of a function spells it. -/
@[simp] theorem ofWord?_name (f : Function) : ofWord? f.name = some (function f) := by
  cases f <;> rfl

/-- The name of a constant spells it. -/
@[simp] theorem ofWord?_constant_name (k : Constant) : ofWord? k.name = some (constant k) := by
  cases k <;> rfl

/-- The plain spelling of a token. -/
def text : Token → String
  | number t => t
  | plus => "+"
  | minus => "-"
  | times => "*"
  | divide => "/"
  | percent => "%"
  | square => "²"
  | leftParen => "("
  | rightParen => ")"
  | function f => String.ofList f.name
  | constant k => String.ofList k.name

end Token

/-- A list of tokens as text, one space between two of them. -/
def tokensText (ts : List Token) : String := String.intercalate " " (ts.map Token.text)

end Calculator
