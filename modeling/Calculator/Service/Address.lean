/-
**The address of the evaluation service.**

An address that cannot be reached by HTTP is refused before any connection is tried: it has no
scheme or another one, names no host, or has a socket number of more than 16 bits.  Only the parts
that decide this are taken from the address.

Main definitions

* `Calculator.Service.Address`, `Calculator.Service.Address.ofText` — where to connect;
* `Calculator.Service.refusal?` — the error of an address that is refused.

Main results

* `Calculator.Service.refusal?_eq_none_iff` — an address is refused unless it says where to connect.
-/

import Calculator.Failure
import Calculator.Number.Decimal

set_option autoImplicit false

namespace Calculator.Service

/-- Where to connect. -/
structure Address where
  /-- Whether the connection is encrypted. -/
  secure : Bool
  /-- The host. -/
  host : List Char
  /-- The number of the socket on the host. -/
  socket : Nat
deriving DecidableEq, Repr

/-- Why an address is refused. -/
inductive AddressError where
  | noScheme
  | unknownScheme
  | noHost
  | invalidHost
  | invalidSocket
deriving DecidableEq, Repr

/-- The wording of a refusal. -/
def AddressError.message : AddressError → String
  | .noScheme => "relative URL without a base"
  | .unknownScheme => "unknown scheme"
  | .noHost => "empty host"
  | .invalidHost => "invalid host"
  | .invalidSocket => "invalid port number"

/-- The characters of a scheme after its first letter. -/
def isSchemeChar (c : Char) : Bool := c.isAlphanum || c == '+' || c == '-' || c == '.'

/-- The scheme, in lower case, and what follows its colon. -/
def splitScheme? (cs : List Char) : Option (List Char × List Char) :=
  match cs.takeWhile isSchemeChar, cs.dropWhile isSchemeChar with
  | c :: scheme, ':' :: rest =>
      if c.isAlpha then some ((c :: scheme).map Char.toLower, rest) else none
  | _, _ => none

/-- Whether a scheme is one of HTTP, and encrypted. -/
def secure? (scheme : List Char) : Option Bool :=
  if scheme = ['h', 't', 't', 'p'] then some false
  else if scheme = ['h', 't', 't', 'p', 's'] then some true
  else none

/-- The characters that end the part naming host and socket. -/
def endsAuthority (c : Char) : Bool := c == '/' || c == '\\' || c == '?' || c == '#'

/-- What follows the last `@`, which separates a user's name from the host. -/
def dropUser (cs : List Char) : List Char := (cs.reverse.takeWhile (· != '@')).reverse

/-- A socket number after its colon; without digits it is the usual one of the scheme. -/
def readSocket (secure : Bool) (cs : List Char) : Except AddressError Nat :=
  if cs.isEmpty then .ok (if secure then 443 else 80)
  else if cs.all Char.isDigit && decide (ofDigits cs < 65536) then .ok (ofDigits cs)
  else .error .invalidSocket

/-- Whether a text between brackets can be a numeric host. -/
def isNumericHost (cs : List Char) : Bool :=
  cs.contains ':' && cs.all fun c => c.isDigit || c == ':' || c == '.' ||
    decide ('a' ≤ c.toLower ∧ c.toLower ≤ 'f')

/-- Host and socket number. -/
def readAuthority (secure : Bool) (cs : List Char) : Except AddressError Address := do
  let (host, rest) ←
    match cs with
    | '[' :: r =>
        match r.dropWhile (· != ']') with
        | _ :: after =>
            let inner := r.takeWhile (· != ']')
            if isNumericHost inner then pure (inner, after) else throw .invalidHost
        | [] => throw .invalidHost
    | _ => pure (cs.takeWhile (· != ':'), cs.dropWhile (· != ':'))
  if host.isEmpty then throw .noHost
  match rest with
  | [] => return ⟨secure, host, ← readSocket secure []⟩
  | ':' :: number => return ⟨secure, host, ← readSocket secure number⟩
  | _ => throw .invalidHost

/-- The place that an address names. -/
def Address.ofText (s : String) : Except AddressError Address :=
  match splitScheme? s.toList with
  | none => .error .noScheme
  | some (scheme, rest) =>
      match secure? scheme with
      | none => .error .unknownScheme
      | some secure =>
          let authority := (rest.dropWhile fun c => c == '/' || c == '\\').takeWhile
            fun c => !endsAuthority c
          readAuthority secure (dropUser authority)

/-- The error of an address that is refused. -/
def refusal? (url : String) : Option ServiceError :=
  match Address.ofText url with
  | .error e => some (.transport e.message)
  | .ok _ => none

/-- An address is refused unless it says where to connect. -/
theorem refusal?_eq_none_iff {url : String} :
    refusal? url = none ↔ ∃ a, Address.ofText url = .ok a := by
  unfold refusal?
  cases Address.ofText url <;> simp

end Calculator.Service
