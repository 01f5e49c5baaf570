/-
**Literals that come from a text have a value.**

A tree keeps its literals as they were typed, and the reader that gives them a value is asked only
when the tree is evaluated.  It takes less than every text and more than numerals: it refuses a text
without digits, and reads names of infinity and of the undefined value as well as signs.  For a tree
that was read from a text neither matters.  Its literals are numerals, digits with at most one point
and at least one digit, so each of them is read, at the double nearest to what its digits are worth;
and this double is neither less than zero nor undefined, though it may be infinite.  The same holds
for the tree that is read back from the canonical text, which is a text like any other.

Main definitions

* `Calculator.Expr.LiteralHasValue`, `Calculator.Expr.LiteralsHaveValues` — what is read from a
  literal, and that every literal of an expression is read so.

Main results

* `Calculator.IsNumeral.exists_digits` — the parts of a numeral;
* `Calculator.Double.zero_le_ofMagnitudeBits`, `Calculator.Double.isNaN_ofMagnitudeBits` — the
  double made of the bits of a magnitude is neither less than zero nor undefined;
* `Calculator.Expr.literals_have_values` — the literals of a tree that was read from a text, and of
  the one that is read from its canonical text.
-/

import Calculator.Expr.Canonical
import Calculator.Proofs.CorrectRounding
import Calculator.Proofs.PlainNumber

set_option autoImplicit false

namespace Calculator

/-! ### Numerals -/

theorem isDigit_of_isNumberChar {c : Char} (h : isNumberChar c = true) (hne : c ≠ '.') :
    c.isDigit = true := by
  simpa [isNumberChar, hne] using h

/-- A numeral is digits, with a point among them at most. -/
theorem IsNumeral.exists_digits {cs : List Char} (h : IsNumeral cs) :
    ∃ whole fraction, whole ++ fraction ≠ [] ∧ (∀ d ∈ whole ++ fraction, d.isDigit) ∧
      (fraction = [] ∧ cs = whole ∨ cs = whole ++ '.' :: fraction) := by
  have hall : ∀ c ∈ cs, isNumberChar c = true := List.all_eq_true.1 h.all
  obtain ⟨d, hd, hdigit⟩ := List.any_eq_true.1 h.any
  have hdne : d ≠ '.' := by
    rintro rfl
    cases hdigit
  by_cases hpoint : '.' ∈ cs
  · obtain ⟨whole, fraction, rfl⟩ := List.append_of_mem hpoint
    have hcount : whole.count '.' = 0 ∧ fraction.count '.' = 0 := by
      have hle := h.count_le
      rw [List.count_append, List.count_cons_self] at hle
      omega
    have hdigits : ∀ c ∈ whole ++ fraction, c.isDigit := by
      intro c hc
      refine isDigit_of_isNumberChar (hall c (by simp at hc ⊢; tauto)) ?_
      rintro rfl
      rcases List.mem_append.1 hc with hc | hc
      · exact List.count_eq_zero.1 hcount.1 hc
      · exact List.count_eq_zero.1 hcount.2 hc
    have hmem : d ∈ whole ++ fraction := by simpa [hdne] using hd
    exact ⟨whole, fraction, List.ne_nil_of_mem hmem, hdigits, .inr rfl⟩
  · have hdigits : ∀ c ∈ cs ++ [], c.isDigit := by
      intro c hc
      rw [List.append_nil] at hc
      exact isDigit_of_isNumberChar (hall c hc) fun heq => hpoint (heq ▸ hc)
    exact ⟨cs, [], by simpa using List.ne_nil_of_mem hd, hdigits, .inl ⟨rfl, rfl⟩⟩

/-- Every numeral is read as a decimal. -/
theorem exists_readDecimal_of_isNumeral {cs : List Char} (h : IsNumeral cs) :
    ∃ d, readDecimal cs = some d := by
  obtain ⟨whole, fraction, hne, hds, ⟨rfl, rfl⟩ | rfl⟩ := h.exists_digits
  · rw [List.append_nil] at hne hds
    exact ⟨_, readDecimal_of_digits hne hds⟩
  · exact ⟨_, readDecimal_of_fraction hne hds⟩

/-! ### Doubles without a sign -/

namespace Double

open Float.Model (UnpackedFloat)
open Float.Model.UnpackedFloat (Sign unpackSign)

theorem le_iff (v w : Float) : v ≤ w ↔ (unpacked v).le (unpacked w) = true :=
  decide_eq_true_iff

/-- A number with a plus sign is not less than zero, unless it is undefined. -/
theorem HasSign.zero_le {x : UnpackedFloat} (h : HasSign .positive x) (hx : x.isNaN = false) :
    (UnpackedFloat.zero .positive).le x = true := by
  cases h with
  | notANumber => cases hx
  | infinity => rfl
  | zero => rfl
  | finite n k hn => rfl

variable {b : Nat}

theorem unpacked_ofMagnitudeBits :
    unpacked (ofMagnitudeBits b) = UnpackedFloat.unpack format (UInt64.ofNat b).toBitVec :=
  unpack_pack_unpack _

/-- The double made of the bits of a magnitude is not undefined; it may be infinite. -/
theorem isNaN_ofMagnitudeBits (hb : b ≤ infinityBits) : (ofMagnitudeBits b).isNaN = false := by
  obtain rfl | hlt := Nat.eq_or_lt_of_le hb
  · rfl
  · change (unpacked (ofMagnitudeBits b)).isNaN = false
    have hfinite := isFinite_unpack_word hlt
    rw [unpacked_ofMagnitudeBits]
    cases hword : UnpackedFloat.unpack format (UInt64.ofNat b).toBitVec with
    | notANumber =>
        rw [hword] at hfinite
        cases hfinite
    | _ => rfl

/-- The double made of the bits of a magnitude is not less than zero. -/
theorem zero_le_ofMagnitudeBits (hb : b ≤ infinityBits) : 0 ≤ ofMagnitudeBits b := by
  have hsmall : b < signBit := Nat.lt_of_le_of_lt hb (by decide)
  have hword : (UInt64.ofNat b).toBitVec.toNat = b :=
    UInt64.toNat_ofNat_of_lt (Nat.lt_trans hsmall (by decide))
  let word : BitVec format.numBits := (UInt64.ofNat b).toBitVec
  have hsign : unpackSign word = 0#1 := by
    rw [unpackSign_eq_zero_iff, hword]
    exact hsmall
  have hpositive : HasSign .positive (unpacked (ofMagnitudeBits b)) := by
    have h := hasSign_unpack word
    rw [hsign] at h
    rwa [unpacked_ofMagnitudeBits]
  exact (le_iff 0 _).2 (hpositive.zero_le (isNaN_ofMagnitudeBits hb))

end Double

theorem Decimal.nearestBits_le (d : Decimal) : d.nearestBits ≤ Double.infinityBits := by
  obtain ⟨num, den, -, hbits, -⟩ := d.exists_nearestBits_eq
  rw [hbits]
  exact Nat.min_le_left _ _

/-! ### Literals -/

/-- Every numeral is read as a number that is neither less than zero nor undefined. -/
theorem exists_readLiteral_of_isNumeral {cs : List Char} (h : IsNumeral cs) :
    ∃ v, readLiteral cs = some v ∧ 0 ≤ v ∧ v.isNaN = false := by
  obtain ⟨d, hd⟩ := exists_readDecimal_of_isNumeral h
  refine ⟨Double.ofMagnitudeBits d.nearestBits, ?_,
    Double.zero_le_ofMagnitudeBits d.nearestBits_le, Double.isNaN_ofMagnitudeBits d.nearestBits_le⟩
  rw [readLiteral_of_isNumeral h, hd, Option.map_some, Decimal.toFloat_eq]

namespace Expr

/-- The text of a literal is read as a number `v` that is neither less than zero nor undefined. -/
structure LiteralHasValue (text : String) (v : Float) : Prop where
  /-- The text is read. -/
  read_eq : readLiteral text.toList = some v
  /-- What is read is what the literal evaluates to. -/
  fold_eq : (literal text).fold = .ok v
  zero_le : 0 ≤ v
  isNaN_eq : v.isNaN = false

/-- Every literal of an expression has a value. -/
def LiteralsHaveValues (e : Expr) : Prop := ∀ text ∈ e.literals, ∃ v, LiteralHasValue text v

theorem HasNumerals.literalsHaveValues {e : Expr} (h : e.HasNumerals) : e.LiteralsHaveValues := by
  intro text htext
  obtain ⟨v, hread, hsign, hnumber⟩ := exists_readLiteral_of_isNumeral (h text htext)
  have hfold : (literal text).fold = .ok v := by rw [fold, hread]
  exact ⟨v, hread, hfold, hsign, hnumber⟩

/-- **Literals that come from a text always have a value.**  The literals of an expression that was
read from a text have one, and so have those of the expression that is read from its canonical
text, if that is read. -/
theorem literals_have_values {s : String} {e : Expr} (h : ofText s = .ok e) :
    e.LiteralsHaveValues ∧
      ∀ e', ofText e.canonicalText = .ok e' → e'.LiteralsHaveValues := by
  constructor
  · exact (hasNumerals_of_ofText h).literalsHaveValues
  · intro e' h'
    exact (hasNumerals_of_ofText h').literalsHaveValues

/-- In `.5%` the literal starts with its point, and the canonical text `.5/100` has a literal that
was not typed. -/
theorem literals_have_values_point :
    (let e := percent (literal ".5");
      let e' := binary .div (literal ".5") (literal "100");
      ofText ".5%" = .ok e ∧ ofText e.canonicalText = .ok e' ∧
        e.LiteralsHaveValues ∧ e'.LiteralsHaveValues) := by
  intro e e'
  have hpoint : Spells ['.', '5'] [.number ".5"] := spells_numeral ⟨rfl, by decide, rfl⟩
  have hhundred : Spells ['1', '0', '0'] [.number "100"] := spells_numeral ⟨rfl, by decide, rfl⟩
  have hread : ofText ".5%" = .ok e :=
    exprOfText_of_derives (hpoint.append (separates_symbol rfl rfl _) (spells_nil.cons rfl))
      (.ofProduct (.ofUnary (.ofPower (.percent (.ofPrimary (.number ".5")))))) (by decide)
      (by decide)
  have hreread : ofText e.canonicalText = .ok e' :=
    exprOfText_of_derives (hpoint.append (separates_symbol rfl rfl _) (hhundred.cons rfl))
      (.ofProduct (.multiply rfl (.ofUnary (.ofPower (.ofPrimary (.number ".5"))))
        (.ofPower (.ofPrimary (.number "100"))))) (by decide) (by decide)
  obtain ⟨hvalues, hcanonical⟩ := literals_have_values hread
  exact ⟨hread, hreread, hvalues, hcanonical e' hreread⟩

end Expr

end Calculator
