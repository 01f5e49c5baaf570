/-
**The keypad.**

A key shows a label and either inserts a text into the entry or gives a command.  The keys stand in
two groups, the memory keys in a row of their own and the pad below them.

Main definitions

* `Calculator.Key` — a key, and the action that pressing it is;
* `Calculator.memoryKeys`, `Calculator.padKeys` — the keys in the order they are shown;
* `Calculator.clearHistoryKey` — the key below the history.

Main results

* `Calculator.Key.action_insertion` — an insertion key inserts its text.
-/

import Calculator.Session.Action

set_option autoImplicit false

namespace Calculator

/-- What a key does. -/
inductive Key.Role where
  /-- It inserts a text into the entry. -/
  | insertion (text : String)
  /-- It gives a command. -/
  | command (action : Action)

/-- A key. -/
structure Key where
  /-- What it shows. -/
  label : String
  /-- What it does. -/
  role : Key.Role

namespace Key

/-- A key that inserts what it shows. -/
def plain (text : String) : Key := ⟨text, .insertion text⟩

/-- The action that pressing a key is. -/
def action (k : Key) : Action :=
  match k.role with
  | .insertion text => .insert text
  | .command a => a

/-- An insertion key inserts its text. -/
@[simp] theorem action_insertion (label text : String) :
    (⟨label, .insertion text⟩ : Key).action = .insert text := rfl

/-- A command key gives its command. -/
@[simp] theorem action_command (label : String) (a : Action) :
    (⟨label, .command a⟩ : Key).action = a := rfl

/-- Whether a key gives a command. -/
def isCommand (k : Key) : Bool :=
  match k.role with
  | .insertion _ => false
  | .command _ => true

end Key

/-- The memory keys. -/
def memoryKeys : List Key :=
  [⟨"MC", .command .memoryClear⟩, ⟨"MR", .command .memoryRecall⟩, ⟨"M+", .command .memoryAdd⟩,
   ⟨"M−", .command .memorySubtract⟩]

/-- The pad, row by row. -/
def padKeys : List Key :=
  [⟨"C", .command .clear⟩, ⟨"AC", .command .reset⟩, .plain "(", .plain ")",
   ⟨"DEL", .command .eraseLast⟩,
   ⟨"sin", .insertion "sin("⟩, ⟨"cos", .insertion "cos("⟩, ⟨"tan", .insertion "tan("⟩,
   ⟨"√", .insertion "√("⟩, .plain "÷",
   .plain "7", .plain "8", .plain "9", ⟨"x²", .insertion "²"⟩, .plain "×",
   .plain "4", .plain "5", .plain "6", .plain "%", .plain "−",
   .plain "1", .plain "2", .plain "3", .plain "π", .plain "+",
   .plain "0", .plain ".", .plain "e", ⟨"=", .command .calculate⟩]

/-- The key below the history that empties it. -/
def clearHistoryKey : Key := ⟨"Vider", .command .clearHistory⟩

end Calculator
