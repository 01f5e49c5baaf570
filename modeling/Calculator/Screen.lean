/-
**The screen.**

The screen shows a session from top to bottom: the title, the entry field, the state of the
calculation, the memory, the pad and the history.  What it shows is a list of items, and a user
acts on it by clicking an item, by typing, or with the keys Enter and Escape.

The screen has two memories of its own.  The entry field has the keyboard or not: buttons give it
back, clicking anything else takes it away, and typing and Enter need it.  And the history section
can be folded away, separately for each number of results, since its header names that number.

After every gesture the screen is drawn again.  Drawing polls the session, so a preview that is due
and an answer that has arrived show at once, and hands the keyboard to the entry field if the
session asks for it.

Main definitions

* `Calculator.Item`, `Calculator.Screen.items`, `Calculator.Screen.texts` — what is shown;
* `Calculator.Screen.Gesture`, `Calculator.Screen.step`, `Calculator.Screen.run` — what a user does,
  one such step, and a list of them;
* `Calculator.Screen.refresh` — drawing again.

Main results

* `Calculator.Screen.session_act` — acting on the screen is acting on its session;
* `Calculator.Screen.run_induction` — what every gesture keeps, every list of them keeps.
-/

import Calculator.Screen.Keypad

set_option autoImplicit false

namespace Calculator

/-! ### What is shown -/

/-- A part of the screen. -/
inductive Item where
  /-- A text that nothing happens to. -/
  | label (text : String)
  /-- The entry field. -/
  | entry (text : String)
  | key (k : Key)
  /-- The header of the history. -/
  | header (text : String)
  /-- A line of the history. -/
  | line (index : Nat) (text : String)

/-- The text of an item. -/
def Item.text : Item → String
  | .label text => text
  | .entry text => text
  | .key k => k.label
  | .header text => text
  | .line _ text => text

/-- A session on the screen. -/
structure Screen where
  /-- The session shown. -/
  session : Session
  /-- Whether the entry field has the keyboard. -/
  focused : Bool := true
  /-- The numbers of results for which the history is folded away. -/
  folded : List Nat := []

namespace Screen

/-- Shown in the empty entry field. -/
def hint : String := "Ex: (2+3)×4, √(2)², sin(30), 15%"

/-- The entry, or the hint. -/
def entryItem (s : Session) : Item := .entry (if s.entry.isEmpty then hint else s.entry)

/-- The request under way, or else the preview; then the last result and the failure. -/
def stateItems (s : Session) : List Item :=
  (if s.request.isSome then [.label "calcul en cours…"]
    else (s.preview.value.map fun v => .label ("= " ++ displayText v)).toList) ++
  (s.result.map fun v => Item.label ("Ans = " ++ displayText v)).toList ++
  (s.failure.map fun e => Item.label ("Erreur : " ++ e.message)).toList

/-- The memory keys, and the memory unless it is empty. -/
def memoryItems (s : Session) : List Item :=
  memoryKeys.map .key ++
  (if s.memory.isEmpty then [] else [.label ("M = " ++ displayText s.memory.value)])

/-- A line of the history. -/
def lineText (item : HistoryItem) : String :=
  item.time ++ "  " ++ item.expression ++ " = " ++ displayText item.result

/-- The lines of the history with their indices. -/
def historyLines (s : Session) : List Item :=
  s.history.items.mapIdx fun i item => .line i (lineText item)

/-- The header of the history. -/
def headerText (s : Session) : String := "Historique (" ++ toString s.history.size ++ ")"

/-- Whether the history is folded away. -/
def isFolded (v : Screen) : Bool := v.folded.contains v.session.history.size

/-- The history: its header and, unless it is folded away, its lines and the key that empties it. -/
def historyItems (v : Screen) : List Item :=
  .header (headerText v.session) ::
    (if v.isFolded then []
      else if v.session.history.items.isEmpty then [.label "vide"]
      else historyLines v.session ++ [.key clearHistoryKey])

/-- Everything on the screen, from top to bottom. -/
def items (v : Screen) : List Item :=
  [.label "Calculatrice", entryItem v.session] ++ stateItems v.session ++
    memoryItems v.session ++ padKeys.map .key ++ v.historyItems

/-- The texts on the screen that are not blank. -/
def texts (v : Screen) : List String :=
  (v.items.map Item.text).filter fun t => !t.toList.all isBlank

/-! ### What a user does -/

/-- What a user does, or what the world does to the screen. -/
inductive Gesture where
  /-- The first item with this text is clicked, the entry field apart. -/
  | click (text : String)
  /-- A line of the history is clicked. -/
  | clickLine (index : Nat)
  /-- The header of the history is clicked. -/
  | clickHeader
  /-- A text is typed at the end of the entry field. -/
  | type (text : String)
  /-- The text in the entry field is edited in any way, and becomes another one. -/
  | edit (text : String)
  | enter
  | escape
  /-- The clock moves on to a time, in milliseconds. -/
  | clock (now : Nat)
  /-- Another time of day has come, as a text. -/
  | timeOfDay (text : String)
  /-- The service answers, or the request is lost. -/
  | answer (a : Answer)

/-- What a gesture reports. -/
inductive Report where
  | nothing
  /-- There was nothing to click. -/
  | missed
  /-- The service was asked for the value of a text. -/
  | asked (canonical : String)
  /-- Whether an answer was awaited. -/
  | answered (awaited : Bool)
deriving DecidableEq, Repr

/-- What an effect on the session tells the user of the screen. -/
def Report.ofEffect : Effect → Report
  | .asked (some canonical) => .asked canonical
  | .answered awaited => .answered awaited
  | _ => .nothing

/-- Acts on the session. -/
def act (v : Screen) (a : Action) : Screen × Report :=
  let (session, effect) := v.session.step a
  ({ v with session }, .ofEffect effect)

theorem session_act (v : Screen) (a : Action) :
    (v.act a).1.session = (v.session.step a).1 := rfl

/-- Takes the keyboard away from the entry field. -/
def unfocus (v : Screen) : Screen := { v with focused := false }

/-- Hands the keyboard to the entry field at the next drawing. -/
def requestFocus (v : Screen) : Screen :=
  { v with session := { v.session with wantsFocus := true } }

/-- Presses a key.  A command key hands the keyboard back whatever its command did. -/
def press (v : Screen) (k : Key) : Screen × Report :=
  let (v, report) := v.act k.action
  (if k.isCommand then v.requestFocus else v, report)

/-- Folds the history away, or unfolds it. -/
def toggleHistory (v : Screen) : Screen :=
  let n := v.session.history.size
  { v with folded := if v.isFolded then v.folded.filter (· != n) else n :: v.folded }

/-- Clicks an item. -/
def clickItem (v : Screen) : Item → Screen × Report
  | .label _ => (v.unfocus, .nothing)
  | .entry _ => (v, .nothing)
  | .key k => v.press k
  | .header _ => (v.toggleHistory.unfocus, .nothing)
  | .line i _ => v.act (.load i)

/-- Whether clicking a text can mean an item; the entry field is left out. -/
def answersTo (text : String) : Item → Bool
  | .entry _ => false
  | item => item.text == text

/-- The item that shows a line of the history. -/
def isLine (index : Nat) : Item → Bool
  | .line i _ => i == index
  | _ => false

/-- Clicks the first item of a kind, if there is one. -/
def clickFirst (v : Screen) (p : Item → Bool) : Screen × Report :=
  match v.items.find? p with
  | some item => v.clickItem item
  | none => (v, .missed)

/-- Edits the text in the entry field, which must have the keyboard and takes no input while input
is refused. -/
def editEntry (v : Screen) (text : String) : Screen × Report :=
  if v.focused && v.session.inputAllowed && text != v.session.entry then v.act (.type text)
  else (v, .nothing)

/-- What a gesture does, before the screen is drawn again. -/
def perform (v : Screen) : Gesture → Screen × Report
  | .click text => v.clickFirst (answersTo text)
  | .clickLine i => v.clickFirst (isLine i)
  | .clickHeader => (v.toggleHistory.unfocus, .nothing)
  | .type text => v.editEntry (v.session.entry ++ text)
  | .edit text => v.editEntry text
  | .enter => if v.focused then v.act .calculate else (v, .nothing)
  | .escape => v.act .clear
  | .clock now => v.act (.clock (max now v.session.clock))
  | .timeOfDay text => v.act (.timeOfDay text)
  | .answer a => v.act (.answer a)

/-- Draws the screen again. -/
def refresh (v : Screen) : Screen :=
  let session := v.session.poll.1
  { v with
    session := { session with wantsFocus := false }
    focused := v.focused || session.wantsFocus }

/-- One gesture, after which the screen is drawn again. -/
def step (v : Screen) (g : Gesture) : Screen × Report :=
  let (v, report) := v.perform g
  (v.refresh, report)

/-- A list of gestures. -/
def run (v : Screen) (gestures : List Gesture) : Screen :=
  gestures.foldl (fun v g => (v.step g).1) v

@[simp] theorem run_nil (v : Screen) : v.run [] = v := rfl

@[simp] theorem run_cons (v : Screen) (g : Gesture) (gestures : List Gesture) :
    v.run (g :: gestures) = (v.step g).1.run gestures := rfl

/-- What every gesture keeps, every list of them keeps. -/
theorem run_induction {P : Screen → Prop} (hstep : ∀ v g, P v → P (v.step g).1) {v : Screen}
    (h : P v) (gestures : List Gesture) : P (v.run gestures) := by
  induction gestures generalizing v with
  | nil => exact h
  | cons g gestures ih => exact ih (hstep v g h)

/-- A session on the screen, drawn for the first time. -/
def new (session : Session) : Screen := ({ session } : Screen).refresh

end Screen

end Calculator
