/-
**The settings file.**

The settings may be given in a TOML file, each under its own key; keys that are missing keep their
defaults and other keys are ignored.  A file that cannot be read or is malformed never keeps the
program from starting: the defaults are used instead.

Main definitions

* `Calculator.Settings.ofToml?` — the settings that a document gives;
* `Calculator.Settings.ofFile`, `Calculator.Settings.load` — the settings that the contents of a
  file give, with the reason of a failure and without;
* `Calculator.Settings.path` — where the file is looked for.

Main results

* `Calculator.Settings.bounded_load` — the settings to start with are within their bounds.
-/

import Calculator.Settings
import Calculator.Toml.Document

set_option autoImplicit false

namespace Calculator

/-! ### Reading values -/

/-- The name of a mode. -/
def Mode.ofName? (name : List Char) : Option Mode :=
  match String.ofList name with
  | "local" => some .builtIn
  | "distant" => some .service
  | "distant_repli" => some .serviceOrBuiltIn
  | _ => none

/-- A mode: its name, or its name as the only key of a table, above nothing. -/
def Mode.ofValue? : Toml.Value → Option Mode
  | .string name => Mode.ofName? name
  | .table _ [(name, .table _ [])] => Mode.ofName? name
  | .table _ [(name, .list _ [])] => Mode.ofName? name
  | _ => none

namespace Settings

/-- A whole number of 64 bits without sign. -/
def natural? : Toml.Value → Option Nat
  | .integer n => if 0 ≤ n ∧ n < (twoPow 64 : Int) then some n.toNat else none
  | _ => none

/-- A text. -/
def text? : Toml.Value → Option String
  | .string s => some (String.ofList s)
  | _ => none

/-- The value under a key, read in some way, or a default if the key is missing. -/
def valueOr {α : Type} (table : Toml.Table) (key : String) (read : Toml.Value → Option α)
    (default : α) : Option α :=
  match table.get? key.toList with
  | none => some default
  | some v => read v

/-- The settings that a table gives. -/
def ofTable? (t : Toml.Table) : Option Settings := do
  let defaults : Settings := {}
  return {
    previewDelay := ← valueOr t "delai_apercu_ms" natural? defaults.previewDelay
    historyCapacity := ← valueOr t "capacite_historique" natural? defaults.historyCapacity
    mode := ← valueOr t "mode" Mode.ofValue? defaults.mode
    serviceUrl := ← valueOr t "url_service" text? defaults.serviceUrl
    timeout := ← valueOr t "timeout_ms" natural? defaults.timeout }

/-- The settings that a document gives, within their bounds. -/
def ofToml? (document : String) : Option Settings :=
  ((Toml.parse? document).bind ofTable?).map bounded

/-- Settings from a document are within their bounds. -/
theorem bounded_of_ofToml? {document : String} {s : Settings} (h : ofToml? document = some s) :
    s.bounded = s := by
  obtain ⟨t, _, rfl⟩ := Option.map_eq_some_iff.1 h
  exact bounded_bounded t

/-! ### Files -/

/-- Why a file gives no settings. -/
inductive FileError where
  /-- It does not exist or is no text. -/
  | unreadable
  /-- It is not a document of settings. -/
  | malformed
deriving DecidableEq, Repr

/-- The settings that the contents of a file give; without contents there is no file. -/
def ofFile (contents : Option ByteArray) : Except FileError Settings :=
  match contents.bind String.fromUTF8? with
  | none => .error .unreadable
  | some document =>
      match ofToml? document with
      | some s => .ok s
      | none => .error .malformed

/-- The settings to start with: those of the file, or the defaults. -/
def load (contents : Option ByteArray) : Settings :=
  match ofFile contents with
  | .ok s => s
  | .error _ => {}

/-- Settings from a file are within their bounds. -/
theorem bounded_of_ofFile {contents : Option ByteArray} {s : Settings}
    (h : ofFile contents = .ok s) : s.bounded = s := by
  unfold ofFile at h
  split at h
  · cases h
  · split at h
    · rename_i hs
      cases h
      exact bounded_of_ofToml? hs
    · cases h

/-- The settings to start with are within their bounds, whatever the file holds, and without one. -/
theorem bounded_load (contents : Option ByteArray) : (load contents).bounded = load contents := by
  unfold load
  split
  · exact bounded_of_ofFile ‹_›
  · rfl

/-! ### Where the file is -/

/-- The variables that decide where the file is. -/
structure Environment where
  /-- The path of the file itself. -/
  file : Option String := none
  /-- The directory for settings. -/
  settingsHome : Option String := none
  /-- The directory of the user. -/
  home : String

/-- A path within a directory. -/
def joinPath (directory path : String) : String :=
  if directory.toList.getLast? = some '/' then directory ++ path else directory ++ "/" ++ path

/-- The directory for settings: the one that is named, if it is an absolute path, or else one in
the user's directory. -/
def settingsDirectory (e : Environment) : String :=
  match e.settingsHome with
  | some d => if d.toList.head? = some '/' then d else joinPath e.home ".config"
  | none => joinPath e.home ".config"

/-- Where the file is looked for. -/
def path (e : Environment) : String :=
  match e.file with
  | some p => p
  | none => joinPath (joinPath (settingsDirectory e) "calculatrice_pave") "config.toml"

end Settings

end Calculator
