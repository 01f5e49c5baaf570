/-
**TOML values and the tables they stand in.**

A TOML document is a table.  It grows line by line: a header opens a table or a new element of a
list of tables, and a line `key = value` adds a member to the table that was opened last, or, if
the key has dots, to a table below it.  No member is ever given twice, and how a table came to be
decides how it may grow.

* A table written in braces is closed.
* A table with a header of its own cannot get another header, nor members through dotted keys.
* A table that exists because a header names a table below it may still get its own header.
* A table that dotted keys have made grows by dotted keys only.

Main definitions

* `Calculator.Toml.Value`, `Calculator.Toml.Origin` — values, and how a table came to be;
* `Calculator.Toml.Table` — a table under construction, with `assign`, `openTable` and
  `openElement`.
-/

set_option autoImplicit false

namespace Calculator.Toml

/-! ### Values -/

/-- A part of a key, without dots and quotes. -/
abbrev Key := List Char

/-- How a table came to be. -/
inductive Origin where
  /-- It is written in braces. -/
  | braces
  /-- It has a header of its own. -/
  | header
  /-- The header of a table below it names it. -/
  | implied
  /-- A dotted key names it. -/
  | dotted
deriving DecidableEq, Repr

/-- A value. -/
inductive Value where
  | string (text : List Char)
  | integer (n : Int)
  | float (v : Float)
  | boolean (b : Bool)
  | dateTime (text : List Char)
  /-- A list, written in brackets or made of tables with headers. -/
  | list (inBrackets : Bool) (items : List Value)
  | table (origin : Origin) (members : List (Key × Value))

/-- The members of a table, in the order they were given. -/
abbrev Members := List (Key × Value)

/-- A table under construction. -/
structure Table where
  /-- How it came to be. -/
  origin : Origin
  /-- Its members. -/
  members : Members

namespace Table

/-- The member with a key. -/
def get? (t : Table) (k : Key) : Option Value := t.members.lookup k

/-- A new member at the end. -/
def append (t : Table) (k : Key) (v : Value) : Table := { t with members := t.members ++ [(k, v)] }

/-- The member with a key, changed. -/
def replace (t : Table) (k : Key) (v : Value) : Table :=
  { t with members := t.members.map fun m => if m.1 = k then (k, v) else m }

/-- The table as a value. -/
def toValue (t : Table) : Value := .table t.origin t.members

end Table

/-! ### Growing a document -/

/-- Changes the table that a path leads to, making the tables on the way that do not exist yet.  A
list of tables leads on to its last element.  Through dots, a table with a header is out of
reach. -/
def within (byDots : Bool) (change : Table → Option Table) : List Key → Table → Option Table
  | [], t => change t
  | k :: path, t =>
      match t.get? k with
      | none => do
          let sub ← within byDots change path ⟨if byDots then .dotted else .implied, []⟩
          return t.append k sub.toValue
      | some (.table origin members) =>
          if origin = .braces ∨ (byDots ∧ origin = .header) then none
          else do
            let sub ← within byDots change path ⟨origin, members⟩
            return t.replace k sub.toValue
      | some (.list false items) =>
          match items.getLast? with
          | some (.table origin members) => do
              let sub ← within byDots change path ⟨origin, members⟩
              return t.replace k (.list false (items.dropLast ++ [sub.toValue]))
          | _ => none
      | some _ => none

namespace Table

/-- Gives a member; the path is what stands before the last dot of its key. -/
def assign (path : List Key) (k : Key) (v : Value) (t : Table) : Option Table :=
  within (!path.isEmpty)
    (fun t =>
      if (t.origin = .dotted) ↔ path.isEmpty then none
      else if (t.get? k).isSome then none
      else some (t.append k v))
    path t

/-- Opens the table of a header. -/
def openTable (path : List Key) (k : Key) (t : Table) : Option Table :=
  within false
    (fun t =>
      match t.get? k with
      | none => some (t.append k (.table .header []))
      | some (.table .implied members) => some (t.replace k (.table .header members))
      | some _ => none)
    path t

/-- Opens a new element in the list of tables of a header. -/
def openElement (path : List Key) (k : Key) (t : Table) : Option Table :=
  within false
    (fun t =>
      match t.get? k with
      | none => some (t.append k (.list false [.table .header []]))
      | some (.list false items) => some (t.replace k (.list false (items ++ [.table .header []])))
      | some _ => none)
    path t

end Table

end Calculator.Toml
