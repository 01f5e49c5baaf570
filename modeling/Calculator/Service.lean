/-
**Talking to the evaluation service.**

The service is asked with an object that holds the canonical text of an expression, and answers
with an object that holds the result.  Other members of the answer are ignored as long as they are
well formed.  The result may also stand alone in a list.

Main definitions

* `Calculator.Service.requestBody` — the question;
* `Calculator.Service.readReply`, `Calculator.Service.decodeReply` — reading the answer.
-/

import Calculator.Failure
import Calculator.Json.Form

set_option autoImplicit false

namespace Calculator.Service

open Json

/-! ### The question -/

/-- The body that asks for the value of a canonical text. -/
def requestBody (canonical : String) : String :=
  String.ofList
    ('{' :: quote "expression".toList ++ ':' :: quote canonical.toList ++ ['}'])

/-! ### The answer -/

/-- The form of the answer, as a report names it. -/
def replyForm : String := "struct Reponse"

/-- The number in front of a text. -/
def readResult : Json.Reader Float := fun cs => do
  match skipSpace cs with
  | [] => stop .endInValue []
  | '-' :: r => do
      let (n, r) ← readNumber false r
      return (n.toFloat, r)
  | c :: r =>
      if c.isDigit then do
        let (n, r) ← readNumber true (c :: r)
        return (n.toFloat, r)
      else wrongForm "f64" (c :: r)

/-- The list form of the answer, after its opening bracket: exactly one number. -/
def readListReply : Json.Reader Float := fun cs => do
  match skipSpace cs with
  | [] => stop .endInList []
  | ']' :: r => stop (.form ("invalid length 0, expected " ++ replyForm ++ " with 1 element")) r
  | r => do
      let (v, r) ← readResult r
      match skipSpace r with
      | ']' :: r => return (v, r)
      | [] => stop .endInList []
      | ',' :: r =>
          let r := skipSpace r
          stopAtNext (if r.head? = some ']' then .trailingComma else .trailingCharacters) r
      | r => stopAtNext .trailingCharacters r

/-- What follows the closing brace of an object, if nothing else stands in front of it.  An object
that is not of the form asked for is reported there. -/
def afterBrace (cs : List Char) : List Char :=
  match skipSpace cs with
  | '}' :: r => r
  | r => r

/-- The end of an object whose result is known, or not. -/
def finishObject (result : Option Float) (cs : List Char) : Except Stop (Float × List Char) :=
  match result with
  | some v => .ok (v, cs)
  | none => stop (.form "missing field `result`") cs

/-- The members of the answer from a key on, given the result if it has been read, in a number of
steps; every member takes at least one character. -/
def readMembersIn : Nat → Option Float → Json.Reader Float
  | 0, _, cs => stop .endInObject cs
  | steps + 1, result, cs =>
      match skipSpace cs with
      | '"' :: r => do
          let (key, r) ← readString r
          let (result, r) ←
            if key = "result".toList then
              if result.isSome then stop (.form "duplicate field `result`") (afterBrace r)
              else do
                let (v, r) ← readResult (← readColon r)
                pure (some v, r)
            else do
              let r ← skipValue (← readColon r)
              pure (result, r)
          match skipSpace r with
          | '}' :: r => finishObject result r
          | ',' :: r =>
              match skipSpace r with
              | '}' :: _ => stopAtNext .trailingComma (skipSpace r)
              | [] => stop .endInValue []
              | r => readMembersIn steps result r
          | [] => stop .endInObject []
          | r => stopAtNext .expectedObjectSeparator r
      | [] => stop .endInObject []
      | r => stopAtNext .keyNotString r

/-- The object form of the answer, after its opening brace. -/
def readObjectReply : Json.Reader Float := fun cs =>
  match skipSpace cs with
  | '}' :: r => finishObject none r
  | r => readMembersIn (r.length + 1) none r

/-- The answer, and nothing after it but space. -/
def readReply (cs : List Char) : Except Stop Float := do
  let (v, r) ←
    match skipSpace cs with
    | [] => stop .endInValue []
    | '[' :: r => readListReply r
    | '{' :: r => readObjectReply r
    | r => wrongForm replyForm r
  match skipSpace r with
  | [] => return v
  | r => stopAtNext .trailingCharacters r

/-- The result that the body of an answer holds. -/
def decodeReply (body : String) : Except ServiceError Float :=
  match readReply body.toList with
  | .error s => .error (.invalidReply (s.message body))
  | .ok v =>
      if v.isFinite then .ok v else .error (.invalidReply ArithmeticError.notFinite.message)

end Calculator.Service
