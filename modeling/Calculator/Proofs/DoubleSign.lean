/-
**The sign of a double.**

A double is packed into a word of 64 bits: one for the sign, then the field of the exponent and the
field of the mantissa.  Packing and unpacking treat the sign apart from the two fields, so negation
does nothing but flip the sign bit, and whatever rounds a magnitude commutes with it.  The one
exception is the undefined value, which has no sign: all words that stand for it are packed into the
same one.

Main definitions

* `Calculator.Double.word` — the word with a given sign and given fields;
* `Calculator.Double.unpacked`, `Calculator.Double.packed` — what a double stands for, and the
  double for it.

Main results

* `Calculator.Double.unpacked_neg` — negation is exact;
* `Calculator.Double.neg_div` — the opposite of a quotient is the quotient of the opposite;
* `Calculator.Double.lt_zero_iff_isNegative` — a double is less than zero exactly if it has the sign
  bit, unless it is undefined or equal to zero.
-/

import Calculator.Number.Double
import Mathlib

set_option autoImplicit false

namespace Calculator.Double

open Float.Model (Format UnpackedFloat)
open Float.Model.UnpackedFloat (Sign Accuracy isNaNBits packComponents pack_unpack
  packComponents_unpackSign_unpackExponent_unpackMantissa roundWithAccuracy unpackExponent
  unpackMantissa unpackSign unpack_packedNaN)

/-- The format of a double. -/
abbrev format : Format := Format.binary64

/-! ### Words -/

/-- The word with the given sign, exponent field and mantissa field. -/
def word (s : Sign) (e : BitVec 11) (m : BitVec 52) : BitVec format.numBits :=
  packComponents format s e m

section Word

variable (s : Sign) (e : BitVec 11) (m : BitVec 52)

@[simp] theorem unpackSign_word : unpackSign (word s e m) = s.toBitVec := by
  simp [word]

@[simp] theorem unpackExponent_word : unpackExponent (word s e m) = e := by
  simp [word]

@[simp] theorem unpackMantissa_word : unpackMantissa (word s e m) = m := by
  simp [word]

/-- Every word is made of its three fields. -/
theorem word_fields (b : BitVec format.numBits) :
    word (Sign.ofBitVec (unpackSign b)) (unpackExponent b) (unpackMantissa b) = b :=
  packComponents_unpackSign_unpackExponent_unpackMantissa b

/-- Negation flips the sign of the word. -/
theorem neg_unpack_word : (UnpackedFloat.unpack format (word s e m)).neg =
    UnpackedFloat.unpack format (word (-s) e m) := by
  simp only [UnpackedFloat.unpack, unpackSign_word, unpackExponent_word, unpackMantissa_word,
    Sign.ofBitVec_toBitVec]
  split
  · split <;> rfl
  · split
    · split <;> rfl
    · rfl

/-- The sign of what a word stands for is its highest bit. -/
theorem unpackSign_eq_one_iff (b : BitVec format.numBits) :
    unpackSign b = 1#1 ↔ signBit ≤ b.toNat := by
  have hb : b.toNat < 0x10000000000000000 := b.isLt
  have hsign : (unpackSign b).toNat = b.toNat / 0x8000000000000000 % 2 := by
    simp [unpackSign, BitVec.extractLsb, Nat.shiftRight_eq_div_pow]
  have hone : (1#1).toNat = 1 := rfl
  rw [← BitVec.toNat_inj, hsign, hone, signBit]
  omega

end Word

/-! ### Negation -/

/-- What a word stands for is not changed by packing. -/
theorem unpack_pack_unpack (b : BitVec format.numBits) :
    UnpackedFloat.unpack format (UnpackedFloat.pack format (UnpackedFloat.unpack format b)) =
      UnpackedFloat.unpack format b := by
  rw [pack_unpack]
  split
  · rename_i hnan
    obtain ⟨hexponent, hmantissa⟩ := of_decide_eq_true hnan
    rw [unpack_packedNaN, UnpackedFloat.unpack, if_pos hexponent, if_neg hmantissa]
  · rfl

/-- Packing keeps sign and magnitude apart: a number and its opposite are packed into words that
differ in the sign. -/
theorem exists_pack_eq_word {x : UnpackedFloat} (hx : x ≠ .notANumber) :
    ∃ s e m, isNaNBits (word (-s) e m) = false ∧ UnpackedFloat.pack format x = word s e m ∧
      UnpackedFloat.pack format x.neg = word (-s) e m := by
  have hnumber (s : Sign) (e : BitVec 11) (m : BitVec 52) (h : e = -1#11 → m = 0#52) :
      isNaNBits (word s e m) = false := by
    simpa [isNaNBits] using h
  cases x with
  | notANumber => exact absurd rfl hx
  | infinity s => exact ⟨s, -1#11, 0#52, hnumber _ _ _ fun _ => rfl, rfl, rfl⟩
  | zero s => exact ⟨s, 0#11, 0#52, hnumber _ _ _ fun _ => rfl, rfl, rfl⟩
  | finite s n k hn =>
      simp only [UnpackedFloat.neg, UnpackedFloat.pack]
      split
      · exact ⟨s, -1#11, 0#52, hnumber _ _ _ fun _ => rfl, rfl, rfl⟩
      rename_i hlarge
      split
      · refine ⟨s, _, _, hnumber _ _ _ ?_, rfl, rfl⟩
        -- the exponent field of infinity has been handled as an overflow
        intro heq
        have htoNat := congrArg BitVec.toNat heq
        have hones : (-1#11).toNat = 2047 := rfl
        have hrange : 2 ^ format.exponentBits = 2048 := rfl
        rw [BitVec.toNat_ofNat] at htoNat
        omega
      · exact ⟨s, 0#11, _, hnumber _ _ _ fun heq => absurd heq (by decide), rfl, rfl⟩

/-- To negate what a number is packed into is to pack its opposite. -/
theorem pack_neg_unpack_pack (x : UnpackedFloat) :
    UnpackedFloat.pack format (UnpackedFloat.unpack format (UnpackedFloat.pack format x)).neg =
      UnpackedFloat.pack format x.neg := by
  by_cases hx : x = .notANumber
  · subst hx
    rfl
  · obtain ⟨s, e, m, hnumber, hpack, hneg⟩ := exists_pack_eq_word hx
    rw [hpack, hneg, neg_unpack_word, pack_unpack, hnumber]
    rfl

theorem neg_div_sign (s t : Sign) : -(s / t) = -s / t := by
  cases s <;> cases t <;> rfl

/-- Rounding passes the sign through. -/
theorem neg_roundWithAccuracy (s : Sign) (n : Nat) (k : Int) (a : Accuracy) :
    (roundWithAccuracy format s n k a).neg = roundWithAccuracy format (-s) n k a := by
  simp only [roundWithAccuracy]
  split <;> rfl

theorem neg_div_unpacked (x y : UnpackedFloat) :
    (UnpackedFloat.div format x y).neg = UnpackedFloat.div format x.neg y := by
  cases x with
  | finite s m k hm =>
      cases y with
      | finite t n l hn =>
          simp only [UnpackedFloat.div, UnpackedFloat.neg, ← neg_div_sign]
          exact neg_roundWithAccuracy _ _ _ _
      | _ => simp [UnpackedFloat.div, UnpackedFloat.neg, neg_div_sign]
  | _ => cases y <;> simp [UnpackedFloat.div, UnpackedFloat.neg, neg_div_sign]

/-- What a double stands for. -/
def unpacked (v : Float) : UnpackedFloat := v.toModel.unpack

/-- The double that a number is packed into. -/
def packed (x : UnpackedFloat) : Float := .ofModel (.pack x)

theorem unpacked_packed (x : UnpackedFloat) :
    unpacked (packed x) = UnpackedFloat.unpack format (UnpackedFloat.pack format x) := rfl

theorem packed_eq_packed {x y : UnpackedFloat}
    (h : UnpackedFloat.pack format x = UnpackedFloat.pack format y) : packed x = packed y := by
  simp only [packed, Float.Model.pack, h]

theorem neg_eq (v : Float) : -v = packed (unpacked v).neg := rfl

theorem div_eq (v w : Float) :
    v / w = packed (UnpackedFloat.div format (unpacked v) (unpacked w)) := rfl

/-- Negation is exact. -/
theorem unpacked_neg (v : Float) : unpacked (-v) = (unpacked v).neg := by
  let b : BitVec format.numBits := v.toBits.toBitVec
  have hneg : (unpacked v).neg = UnpackedFloat.unpack format
      (word (-Sign.ofBitVec (unpackSign b)) (unpackExponent b) (unpackMantissa b)) := by
    rw [← neg_unpack_word, word_fields]
    rfl
  rw [neg_eq, unpacked_packed, hneg, unpack_pack_unpack]

/-- The opposite of a quotient is the quotient of the opposite. -/
theorem neg_div (v w : Float) : -(v / w) = -v / w := by
  calc -(v / w)
      = packed (UnpackedFloat.div format (unpacked v) (unpacked w)).neg := by
        -- the quotient is rounded before it is negated, which packing does not show
        rw [neg_eq, div_eq, unpacked_packed]
        exact packed_eq_packed (pack_neg_unpack_pack _)
    _ = packed (UnpackedFloat.div format (unpacked (-v)) (unpacked w)) := by
        rw [neg_div_unpacked, unpacked_neg]
    _ = -v / w := (div_eq _ _).symm

/-! ### Order -/

theorem lt_iff (v w : Float) : v < w ↔ (unpacked v).lt (unpacked w) = true :=
  decide_eq_true_iff

/-- A number of the given sign, or the undefined value. -/
inductive HasSign (s : Sign) : UnpackedFloat → Prop
  | notANumber : HasSign s .notANumber
  | infinity : HasSign s (.infinity s)
  | zero : HasSign s (.zero s)
  | finite (n : Nat) (k : Int) (hn : 0 < n) : HasSign s (.finite s n k hn)

/-- What a word stands for has the sign of the word. -/
theorem hasSign_unpack (b : BitVec format.numBits) :
    HasSign (Sign.ofBitVec (unpackSign b)) (UnpackedFloat.unpack format b) := by
  simp only [UnpackedFloat.unpack]
  split
  · split
    · exact .infinity
    · exact .notANumber
  · split
    · split
      · exact .zero
      · exact .finite _ _ _
    · exact .finite _ _ _

/-- A number is less than zero exactly if its sign is minus, unless it is undefined or equal to
zero. -/
theorem HasSign.lt_zero_iff {s : Sign} {x : UnpackedFloat} (h : HasSign s x)
    (hnumber : x.isNaN = false) (hzero : x.beq (.zero .positive) = false) :
    x.lt (.zero .positive) = true ↔ s = .negative := by
  cases s with
  | positive =>
      refine iff_of_false ?_ nofun
      cases h with
      | notANumber => cases hnumber
      | zero => cases hzero
      | infinity => exact Bool.false_ne_true
      | finite n k hn => exact Bool.false_ne_true
  | negative =>
      refine iff_of_true ?_ rfl
      cases h with
      | notANumber => cases hnumber
      | zero => cases hzero
      | infinity => rfl
      | finite n k hn => rfl

/-- A sign bit that is set stands for a minus sign. -/
theorem ofBitVec_eq_negative_iff (bit : BitVec 1) : Sign.ofBitVec bit = .negative ↔ bit = 1#1 := by
  obtain rfl | rfl : bit = 0#1 ∨ bit = 1#1 := by
    revert bit
    decide
  · exact iff_of_false nofun (by decide)
  · exact iff_of_true rfl rfl

section Order

variable {v : Float}

theorem isNaN_iff : v.isNaN = true ↔ unpacked v = .notANumber :=
  UnpackedFloat.isNaN_iff

/-- The undefined value is not finite. -/
theorem isFinite_of_isNaN (h : v.isNaN = true) : v.isFinite = false := by
  change (unpacked v).isFinite = false
  rw [isNaN_iff.1 h]
  rfl

theorem isNaN_of_isFinite (h : v.isFinite = true) : v.isNaN = false := by
  rw [Bool.eq_false_iff]
  intro hundefined
  rw [isFinite_of_isNaN hundefined] at h
  cases h

/-- The undefined value is not less than zero. -/
theorem not_lt_zero_of_isNaN (h : v.isNaN = true) : ¬ v < 0 := by
  rw [lt_iff, isNaN_iff.1 h]
  exact Bool.false_ne_true

/-- A double is less than zero exactly if it has the sign bit, unless it is undefined or equal to
zero. -/
theorem lt_zero_iff_isNegative (hnumber : v.isNaN = false) (hzero : (v == 0) = false) :
    v < 0 ↔ isNegative v = true := by
  let b : BitVec format.numBits := v.toBits.toBitVec
  have hsign : HasSign (Sign.ofBitVec (unpackSign b)) (unpacked v) := hasSign_unpack b
  calc v < 0
      ↔ (unpacked v).lt (.zero .positive) = true := lt_iff v 0
    _ ↔ Sign.ofBitVec (unpackSign b) = .negative := hsign.lt_zero_iff hnumber hzero
    _ ↔ unpackSign b = 1#1 := ofBitVec_eq_negative_iff _
    _ ↔ signBit ≤ b.toNat := unpackSign_eq_one_iff b
    _ ↔ isNegative v = true := decide_eq_true_iff.symm

end Order

end Calculator.Double
