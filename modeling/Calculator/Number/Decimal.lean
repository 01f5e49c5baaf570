/-
**Decimal numerals.**

Texts of numbers are written and read digit by digit.  This module holds the numeral of a natural
number, the number of a numeral, rounding of a quotient to the nearest whole number, and the plain
positional text of a decimal fraction.

Main definitions

* `Calculator.twoPow`, `Calculator.tenPow` — powers of the two bases;
* `Calculator.digits`, `Calculator.ofDigits` — a natural number to its numeral and back;
* `Calculator.roundQuotient` — the whole number nearest to a quotient, a half going to the even
  neighbour;
* `Calculator.decimalExponent` — the position of the first significant digit of a quotient;
* `Calculator.plainText` — the text of `q / 10 ^ places`, without needless zeros.

Main results

* `Calculator.ofDigits_digits` — a numeral reads back as its number;
* `Calculator.digits_ne_nil`, `Calculator.isDigit_of_mem_digits` — a numeral is a nonempty run of
  decimal digits.
-/

set_option autoImplicit false

namespace Calculator

/-! ### Powers -/

/-- A power of two. -/
def twoPow (k : Nat) : Nat := Nat.pow 2 k

/-- A power of ten. -/
def tenPow (k : Nat) : Nat := Nat.pow 10 k

theorem twoPow_pos (k : Nat) : 0 < twoPow k := Nat.pow_pos (by decide)

theorem tenPow_pos (k : Nat) : 0 < tenPow k := Nat.pow_pos (by decide)

/-! ### Numerals -/

/-- The character of a decimal digit. -/
def digitChar (d : Nat) : Char := Char.ofNat ('0'.toNat + d)

/-- The value of a decimal digit. -/
def digitValue (c : Char) : Nat := c.toNat - '0'.toNat

/-- The numeral of a natural number, most significant digit first. -/
def digits (n : Nat) : List Char :=
  if n < 10 then [digitChar n] else digits (n / 10) ++ [digitChar (n % 10)]

/-- The number written by a run of digits, most significant digit first. -/
def ofDigits (cs : List Char) : Nat := cs.foldl (fun n c => 10 * n + digitValue c) 0

@[simp] theorem ofDigits_nil : ofDigits [] = 0 := rfl

theorem ofDigits_append_singleton (cs : List Char) (c : Char) :
    ofDigits (cs ++ [c]) = 10 * ofDigits cs + digitValue c := by
  simp [ofDigits]

theorem digitValue_digitChar {d : Nat} (h : d < 10) : digitValue (digitChar d) = d := by
  have : ∀ d : Fin 10, digitValue (digitChar d) = d := by decide
  exact this ⟨d, h⟩

theorem isDigit_digitChar {d : Nat} (h : d < 10) : (digitChar d).isDigit := by
  have : ∀ d : Fin 10, (digitChar d).isDigit := by decide
  exact this ⟨d, h⟩

theorem digits_of_lt {n : Nat} (h : n < 10) : digits n = [digitChar n] := by
  rw [digits, if_pos h]

theorem digits_of_ge {n : Nat} (h : ¬ n < 10) :
    digits n = digits (n / 10) ++ [digitChar (n % 10)] := by
  rw [digits, if_neg h]

/-- A numeral reads back as its number. -/
theorem ofDigits_digits (n : Nat) : ofDigits (digits n) = n := by
  induction n using Nat.strongRecOn with
  | _ n ih =>
      by_cases h : n < 10
      · rw [digits_of_lt h]
        simp [ofDigits, digitValue_digitChar h]
      · rw [digits_of_ge h, ofDigits_append_singleton, ih _ (by omega),
          digitValue_digitChar (by omega)]
        omega

theorem digits_ne_nil (n : Nat) : digits n ≠ [] := by
  by_cases h : n < 10
  · simp [digits_of_lt h]
  · simp [digits_of_ge h]

theorem isDigit_of_mem_digits {n : Nat} {c : Char} (h : c ∈ digits n) : c.isDigit := by
  induction n using Nat.strongRecOn generalizing c with
  | _ n ih =>
      by_cases hn : n < 10
      · rw [digits_of_lt hn, List.mem_singleton] at h
        exact h ▸ isDigit_digitChar hn
      · rw [digits_of_ge hn, List.mem_append, List.mem_singleton] at h
        rcases h with h | h
        · exact ih _ (by omega) h
        · exact h ▸ isDigit_digitChar (by omega)

/-! ### Quotients -/

/-- The whole number nearest to `num / den`; a half goes to the even neighbour. -/
def roundQuotient (num den : Nat) : Nat :=
  let q := num / den
  let r := num % den
  if 2 * r < den then q
  else if den < 2 * r then q + 1
  else if q % 2 = 0 then q
  else q + 1

/-- A whole quotient is not changed by rounding. -/
theorem roundQuotient_mul {den : Nat} (h : 0 < den) (q : Nat) :
    roundQuotient (q * den) den = q := by
  simp [roundQuotient, Nat.mul_div_cancel _ h, h]

/-- The exponent `k` with `10 ^ k ≤ num / den < 10 ^ (k + 1)`, for a positive quotient. -/
def decimalExponent (num den : Nat) : Int :=
  if den ≤ num then ((digits (num / den)).length : Int) - 1
  else -((digits ((den - 1) / num)).length : Int)

/-! ### Plain positional text -/

/-- A run of digits without the zeros at its end. -/
def dropTrailingZeros (cs : List Char) : List Char :=
  (cs.reverse.dropWhile (· == '0')).reverse

/-- The digits after the point of `q / 10 ^ places`, as many as there are places. -/
def fractionDigits (q places : Nat) : List Char :=
  let ds := digits (q % tenPow places)
  if places = 0 then [] else List.replicate (places - ds.length) '0' ++ ds

/-- The text of `q / 10 ^ places`: the whole part, then, unless nothing but zeros follows the
point, the point and the fraction up to its last digit that is not zero. -/
def plainText (q places : Nat) : List Char :=
  let fraction := dropTrailingZeros (fractionDigits q places)
  digits (q / tenPow places) ++ (if fraction.isEmpty then [] else '.' :: fraction)

end Calculator
