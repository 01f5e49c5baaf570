/-
**Skipping values in JSON.**

A value that nobody asks for is skipped: it must be well formed, but its strings need not pair
their surrogates and its numbers may be of any size.

Main definitions

* `Calculator.Json.skipValue` — skips a value.
-/

import Calculator.Json.Number
import Calculator.Json.Quoted

set_option autoImplicit false

namespace Calculator.Json

/-- Takes off the colon between a key and its value. -/
def readColon (cs : List Char) : Except Stop (List Char) :=
  match skipSpace cs with
  | ':' :: r => .ok r
  | [] => stop .endInObject []
  | r => stopAtNext .expectedColon r

mutual

/-- Skips a value in a number of steps; every value takes at least one character. -/
def skipValueIn : Nat → List Char → Except Stop (List Char)
  | 0, cs => stop .endInValue cs
  | steps + 1, cs =>
      match skipSpace cs with
      | [] => stop .endInValue []
      | 'n' :: r => do return (← readName ['u', 'l', 'l'] r).2
      | 't' :: r => do return (← readName ['r', 'u', 'e'] r).2
      | 'f' :: r => do return (← readName ['a', 'l', 's', 'e'] r).2
      | '-' :: r => skipNumber r
      | '"' :: r => skipString r
      | '[' :: r =>
          match skipSpace r with
          | ']' :: r => .ok r
          | [] => stop .endInList []
          | r => skipItemsIn steps r
      | '{' :: r =>
          match skipSpace r with
          | '}' :: r => .ok r
          | [] => stop .endInObject []
          | r => skipMembersIn steps r
      | c :: r => if c.isDigit then skipNumber (c :: r) else stopAtNext .expectedValue (c :: r)

/-- Skips the items of a list and its closing bracket. -/
def skipItemsIn : Nat → List Char → Except Stop (List Char)
  | 0, cs => stop .endInList cs
  | steps + 1, cs => do
      match skipSpace (← skipValueIn steps cs) with
      | ',' :: r => skipItemsIn steps r
      | ']' :: r => .ok r
      | [] => stop .endInList []
      | r => stopAtNext .expectedListSeparator r

/-- Skips the members of an object and its closing brace. -/
def skipMembersIn : Nat → List Char → Except Stop (List Char)
  | 0, cs => stop .endInObject cs
  | steps + 1, cs =>
      match skipSpace cs with
      | '"' :: r => do
          match skipSpace (← skipValueIn steps (← readColon (← skipString r))) with
          | ',' :: r => skipMembersIn steps r
          | '}' :: r => .ok r
          | [] => stop .endInObject []
          | r => stopAtNext .expectedObjectSeparator r
      | [] => stop .endInObject []
      | r => stopAtNext .keyNotString r

end

/-- Skips a value. -/
def skipValue (cs : List Char) : Except Stop (List Char) := skipValueIn (2 * cs.length + 1) cs

end Calculator.Json
