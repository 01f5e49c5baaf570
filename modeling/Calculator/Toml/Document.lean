/-
**TOML documents.**

A document is a sequence of lines: blank ones, headers, and members; each may end in a comment.
Lists may run over several lines and may end in a comma, and so may tables in braces, where only
the parts of a dotted key have to stay on one line.  Lists and tables in braces nest to a bounded
depth.

Main definitions

* `Calculator.Toml.readValue?` — a value;
* `Calculator.Toml.parse?` — the table that a document is, if it is well formed.
-/

import Calculator.Toml.Quoted

set_option autoImplicit false

namespace Calculator.Toml

/-! ### Between values -/

/-- What follows a comment, up to the end of its line; control characters are refused. -/
def skipComment? (cs : List Char) : Option (List Char) :=
  let text := cs.takeWhile fun c => c != '\n' && c != '\r'
  if text.any isControl then none else some (cs.drop text.length)

/-- Skips gaps, line breaks and comments, in a number of steps. -/
def skipFillerIn : Nat → List Char → Option (List Char)
  | 0, cs => some cs
  | steps + 1, cs =>
      match skipGap cs with
      | '#' :: r => do skipFillerIn steps (← skipComment? r)
      | r =>
          match afterBreak? r with
          | some r => skipFillerIn steps r
          | none => some r

/-- Skips gaps, line breaks and comments. -/
def skipFiller? (cs : List Char) : Option (List Char) := skipFillerIn (2 * cs.length + 1) cs

/-- The end of a line: a comment, if any, and a line break or the end of the document. -/
def afterLine? (cs : List Char) : Option (List Char) := do
  let rest ←
    match skipGap cs with
    | '#' :: r => skipComment? r
    | r => some r
  if rest.isEmpty then some [] else afterBreak? rest

/-! ### Keys -/

/-- The characters of a key without quotes. -/
def isKeyChar (c : Char) : Bool := c.isAlphanum || c == '_' || c == '-'

/-- One part of a key. -/
def readKeyPart? : List Char → Option (Key × List Char)
  | '"' :: cs => readQuoted? '"' cs
  | '\'' :: cs => readQuoted? '\'' cs
  | cs =>
      let part := cs.takeWhile isKeyChar
      if part.isEmpty then none else some (part, cs.drop part.length)

/-- A key of at most so many parts with dots between them; gives the parts before the last, and the
last. -/
def readKeyIn : Nat → List Char → Option ((List Key × Key) × List Char)
  | 0, _ => none
  | parts + 1, cs => do
      let (part, cs) ← readKeyPart? (skipGap cs)
      match skipGap cs with
      | '.' :: r => do
          let ((path, last), r) ← readKeyIn parts r
          return ((part :: path, last), r)
      | r => return (([], part), r)

/-- The most parts that a key has. -/
def maxKeyParts : Nat := 80

/-- A key. -/
def readKey? (cs : List Char) : Option ((List Key × Key) × List Char) := readKeyIn maxKeyParts cs

/-! ### Values -/

/-- How deep lists and tables in braces may nest. -/
def maxDepth : Nat := 80

/-- The characters that end a scalar. -/
def endsScalar (c : Char) : Bool :=
  c == ' ' || c == '\t' || c == '\n' || c == '\r' || c == '#' || c == ',' || c == ']' || c == '}'

/-- The text of a scalar.  A single space between a date and a time belongs to it. -/
def scalarText (cs : List Char) : List Char :=
  let text := cs.takeWhile (!endsScalar ·)
  match cs.drop text.length with
  | ' ' :: r =>
      let time := r.takeWhile (!endsScalar ·)
      if (afterDate? text).any List.isEmpty && time.head?.any Char.isDigit then text ++ ' ' :: time
      else text
  | _ => text

mutual

/-- A value, in a number of steps and at most so deep. -/
def readValueIn : Nat → Nat → List Char → Option (Value × List Char)
  | 0, _, _ => none
  | steps + 1, depth, cs =>
      match cs with
      | '"' :: '"' :: '"' :: r => (readLines? '"' r).map fun (s, r) => (.string s, r)
      | '\'' :: '\'' :: '\'' :: r => (readLines? '\'' r).map fun (s, r) => (.string s, r)
      | '"' :: r => (readQuoted? '"' r).map fun (s, r) => (.string s, r)
      | '\'' :: r => (readQuoted? '\'' r).map fun (s, r) => (.string s, r)
      | '[' :: r =>
          match depth with
          | 0 => none
          | depth + 1 => do
              let (items, r) ← readItemsIn steps depth r
              return (.list true items, r)
      | '{' :: r =>
          match depth with
          | 0 => none
          | depth + 1 => do
              let (table, r) ← readMembersIn steps depth ⟨.braces, []⟩ r
              return (table.toValue, r)
      | _ => do
          let text := scalarText cs
          return (← readScalar? text, cs.drop text.length)

/-- The items of a list and its closing bracket. -/
def readItemsIn : Nat → Nat → List Char → Option (List Value × List Char)
  | 0, _, _ => none
  | steps + 1, depth, cs => do
      match ← skipFiller? cs with
      | ']' :: r => return ([], r)
      | r => do
          let (v, r) ← readValueIn steps depth r
          match ← skipFiller? r with
          | ',' :: r => do
              let (vs, r) ← readItemsIn steps depth r
              return (v :: vs, r)
          | ']' :: r => return ([v], r)
          | _ => none

/-- The members of a table in braces and its closing brace, given those before. -/
def readMembersIn : Nat → Nat → Table → List Char → Option (Table × List Char)
  | 0, _, _, _ => none
  | steps + 1, depth, table, cs => do
      match ← skipFiller? cs with
      | '}' :: r => return (table, r)
      | r => do
          let ((path, k), r) ← readKey? r
          let r ← expectChar? '=' (← skipFiller? r)
          let (v, r) ← readValueIn steps depth (← skipFiller? r)
          let table ← table.assign path k v
          match ← skipFiller? r with
          | ',' :: r => readMembersIn steps depth table r
          | '}' :: r => return (table, r)
          | _ => none

end

/-- A value. -/
def readValue? (cs : List Char) : Option (Value × List Char) :=
  readValueIn (2 * cs.length + 1) maxDepth cs

/-! ### Lines -/

/-- A document under construction: the whole table, and the path of the table opened last. -/
structure Document where
  /-- The whole table. -/
  root : Table
  /-- The keys that lead to the table opened last. -/
  current : List Key

/-- A header, after its opening bracket. -/
def readHeader? (d : Document) (cs : List Char) : Option (Document × List Char) := do
  let ((path, k), r) ← readKey? cs
  let r ← expectChar? ']' r
  return (⟨← d.root.openTable path k, path ++ [k]⟩, r)

/-- The header of an element in a list of tables, after its opening brackets. -/
def readElementHeader? (d : Document) (cs : List Char) : Option (Document × List Char) := do
  let ((path, k), r) ← readKey? cs
  let r ← expectChar? ']' (← expectChar? ']' r)
  return (⟨← d.root.openElement path k, path ++ [k]⟩, r)

/-- A member of the table opened last. -/
def readMember? (d : Document) (cs : List Char) : Option (Document × List Char) := do
  let ((path, k), r) ← readKey? cs
  let r ← expectChar? '=' r
  let (v, r) ← readValue? (skipGap r)
  return ({ d with root := ← within false (·.assign path k v) d.current d.root }, r)

/-- The lines of a document, given what the lines before them have built, in a number of steps. -/
def readLinesOfIn : Nat → Document → List Char → Option Document
  | 0, _, _ => none
  | steps + 1, d, cs => do
      match ← skipFiller? cs with
      | [] => return d
      | cs => do
          let (d, r) ←
            match cs with
            | '[' :: '[' :: r => readElementHeader? d r
            | '[' :: r => readHeader? d r
            | _ => readMember? d cs
          readLinesOfIn steps d (← afterLine? r)

/-- A text without the mark that may precede a document. -/
def dropMark : List Char → List Char
  | '\ufeff' :: cs => cs
  | cs => cs

/-- The table that a document is. -/
def parse? (s : String) : Option Table :=
  let cs := dropMark s.toList
  (readLinesOfIn (cs.length + 1) ⟨⟨.header, []⟩, []⟩ cs).map Document.root

end Calculator.Toml
