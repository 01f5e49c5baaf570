/-
**A text piece by piece.**

Scanning keeps the tokens of a text and forgets where they stood.  To speak about the characters a
token is written with, or about the character in front of it, the text is cut into pieces: one for
each lexeme that scanning takes off, with the characters it takes and the tokens it gives.  A text
has tokens if it can be cut up, it can be cut up in one way only, and the pieces put together again
are the text.

Main definitions

* `Calculator.Piece` — a lexeme with the characters it is written with;
* `Calculator.Splits` — a text is cut into a list of pieces.

Main results

* `Calculator.scan_eq_ok` — the tokens of a text are those of its pieces;
* `Calculator.Splits.flatMap_chars`, `Calculator.Splits.unique` — the pieces make up the text, and
  there is one way to cut it;
* `Calculator.Splits.of_append` — what is behind some pieces is cut into the pieces that follow.
-/

import Calculator.Proofs.Scanning

set_option autoImplicit false

namespace Calculator

/-! ### Pieces -/

/-- The characters that a lexeme takes, and the tokens that they spell. -/
structure Piece where
  chars : List Char
  tokens : List Token
deriving DecidableEq, Repr

/-- The piece of a lexeme that starts with `c`, given the text after `c`. -/
def Lexeme.piece (x : Lexeme) (c : Char) (cs : List Char) : Piece :=
  ⟨c :: cs.take x.extra, x.tokens⟩

/-- A text is cut into pieces, lexeme by lexeme, given the character before it. -/
inductive Splits : Option Char → List Char → List Piece → Prop where
  | nil (before : Option Char) : Splits before [] []
  | cons {before : Option Char} {c : Char} {cs : List Char} {x : Lexeme} {ps : List Piece}
      (hx : lexeme before c cs = .ok x)
      (hps : Splits ((c :: cs)[x.extra]?) (cs.drop x.extra) ps) :
      Splits before (c :: cs) (x.piece c cs :: ps)

variable {before : Option Char} {c : Char} {cs : List Char} {x : Lexeme} {ps qs : List Piece}

/-- The tokens of a text are those of its pieces. -/
theorem scan_eq_ok {ts : List Token} :
    scan before cs = .ok ts ↔ ∃ ps, Splits before cs ps ∧ ps.flatMap Piece.tokens = ts := by
  constructor
  · intro h
    induction before, cs using scan.induct generalizing ts with
    | case1 before =>
        rw [scan_nil] at h
        cases h
        exact ⟨[], .nil before, rfl⟩
    | case2 before c cs ih =>
        rw [scan_cons] at h
        obtain ⟨x, hx, hscan⟩ := bind_eq_ok.1 h
        obtain ⟨us, hus, rfl⟩ := prependTokens_eq_ok hscan
        obtain ⟨ps, hps, rfl⟩ := ih x hus
        exact ⟨x.piece c cs :: ps, .cons hx hps, rfl⟩
  · rintro ⟨ps, hps, rfl⟩
    induction hps with
    | nil before => exact scan_nil before
    | @cons before c cs x ps hx _ ih =>
        rw [scan_cons, hx, ok_bind, ih]
        rfl

/-- There is one way to cut a text. -/
theorem Splits.unique (hps : Splits before cs ps) (hqs : Splits before cs qs) : ps = qs := by
  induction hps generalizing qs with
  | nil before =>
      cases hqs
      rfl
  | @cons before c cs x ps hx _ ih =>
      cases hqs with
      | cons hy hqs =>
          cases hx.symm.trans hy
          rw [ih hqs]

/-! ### Runs of characters -/

/-- A run of characters of a class as a part of the text. -/
theorem take_length_takeWhile (p : Char → Bool) (cs : List Char) :
    cs.take (cs.takeWhile p).length = cs.takeWhile p :=
  (List.prefix_iff_eq_take.1 (List.takeWhile_prefix p)).symm

/-- A run of characters of a class that goes on as far as it can is not followed by one of them. -/
theorem startsWith_drop_takeWhile (p : Char → Bool) (cs : List Char) :
    startsWith p (cs.drop (cs.takeWhile p).length) = false := by
  induction cs with
  | nil => rfl
  | cons c cs ih =>
      cases hc : p c with
      | false => simp [startsWith, hc]
      | true => simpa [hc] using ih

/-! ### The characters of the pieces -/

/-- The pieces make up the text. -/
theorem Splits.flatMap_chars (h : Splits before cs ps) : ps.flatMap Piece.chars = cs := by
  induction h with
  | nil => rfl
  | @cons before c cs x ps _ _ ih =>
      rw [List.flatMap_cons, ih]
      exact congrArg (c :: ·) (List.take_append_drop x.extra cs)

/-- The last character of a piece is the one that the next lexeme sees before it. -/
theorem getLast?_piece (hx : lexeme before c cs = .ok x) :
    (x.piece c cs).chars.getLast? = (c :: cs)[x.extra]? := by
  have hextra := extra_le_of_lexeme hx
  change (c :: cs.take x.extra).getLast? = _
  rw [List.getLast?_eq_getElem?, List.length_cons, List.length_take_of_le hextra,
    Nat.add_sub_cancel, ← List.take_succ_cons, List.getElem?_take_of_lt (Nat.lt_succ_self _)]

/-- What is behind some pieces of a text is cut into the pieces that follow. -/
theorem Splits.of_append (h : Splits before cs (qs ++ ps)) :
    ∃ rest, cs = qs.flatMap Piece.chars ++ rest ∧
      Splits ((qs.flatMap Piece.chars).getLast?.or before) rest ps := by
  induction qs generalizing before cs with
  | nil => exact ⟨cs, rfl, by simpa using h⟩
  | cons q qs ih =>
      cases h with
      | @cons _ c cs x _ hx hps =>
          obtain ⟨rest, hrest, hsplits⟩ := ih hps
          refine ⟨rest, ?_, ?_⟩
          · rw [List.flatMap_cons, List.append_assoc, ← hrest]
            exact congrArg (c :: ·) (List.take_append_drop x.extra cs).symm
          · obtain ⟨d, hd⟩ : ∃ d, (x.piece c cs).chars.getLast? = some d :=
              ⟨_, List.getLast?_eq_some_getLast (List.cons_ne_nil _ _)⟩
            rw [← getLast?_piece hx, hd] at hsplits
            rw [List.flatMap_cons, List.getLast?_append, hd, Option.or_assoc, Option.some_or]
            exact hsplits

end Calculator
