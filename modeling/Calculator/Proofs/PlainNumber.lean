/-
**Plain numbers.**

Both texts of a number are plain: a minus sign at most, digits, and if the number is not whole a
point and digits that do not end in a zero.  Such a text is a numeral with perhaps a minus sign in
front, so it is scanned to one token or two and read as a literal or as the opposite of one, by
itself as well as in parentheses.  The literal is worth what the positional notation says, and the
number that it is read as is the double nearest to that.

Main definitions

* `Calculator.PlainNumber` — the parts of a plain text, with `Calculator.PlainNumber.text`,
  `Calculator.PlainNumber.value`, `Calculator.PlainNumber.tokens` and `Calculator.PlainNumber.expr`;
* `Calculator.PlainNumber.ofQuotient` — the plain number `q / 10 ^ places`.

Main results

* `Calculator.PlainNumber.signedText_plainText`, `Calculator.PlainNumber.value_ofQuotient` — the
  positional text of a quotient is plain, and is worth the quotient;
* `Calculator.PlainNumber.tokenOfText_text`, `Calculator.PlainNumber.exprOfText_text`,
  `Calculator.PlainNumber.exprOfText_parenthesized` — what a plain text is read as;
* `Calculator.PlainNumber.fold_expr` — the double that it is worth.
-/

import Calculator.Expr.Value
import Calculator.Proofs.CanonicalTokens
import Calculator.Proofs.NearestDouble
import Calculator.Proofs.NumberText

set_option autoImplicit false

namespace Calculator

/-! ### Reading numerals -/

/-- Digits and points have no letter case. -/
theorem toLower_of_isNumberChar {c : Char} (h : isNumberChar c) : c.toLower = c := by
  rw [Char.toLower, dif_neg]
  rintro ⟨hletter, -⟩
  simp only [isNumberChar, Char.isDigit, Bool.or_eq_true, Bool.and_eq_true, decide_eq_true_eq,
    beq_iff_eq] at h
  rcases h with ⟨-, hdigit⟩ | rfl
  · exact absurd (UInt32.le_trans hletter hdigit) (by decide)
  · exact absurd hletter (by decide)

section Numeral

variable {cs : List Char}

/-- No name is written in digits and points. -/
theorem ofList_map_toLower_ne (h : IsNumeral cs) (name : String)
    (hname : name.toList.all isNumberChar = false) :
    String.ofList (cs.map Char.toLower) ≠ name := by
  intro heq
  have hmap : cs.map Char.toLower = cs.map id :=
    List.map_congr_left fun c hc => toLower_of_isNumberChar (List.all_eq_true.1 h.all c hc)
  rw [hmap, List.map_id] at heq
  rw [← heq, String.toList_ofList, h.all] at hname
  cases hname

/-- Digits alone are read at their worth. -/
theorem readDecimal_of_digits {ds : List Char} (hne : ds ≠ []) (hds : ∀ d ∈ ds, d.isDigit) :
    readDecimal ds = some ⟨ofDigits ds, 0⟩ := by
  have htake : ds.takeWhile Char.isDigit = ds := List.takeWhile_eq_self_iff.2 hds
  have hdrop : ds.dropWhile Char.isDigit = [] := List.dropWhile_eq_nil_iff.2 hds
  simp [readDecimal, htake, hdrop, hne]

/-- Digits with a point among them are read at their worth. -/
theorem readDecimal_of_fraction {whole fraction : List Char} (hne : whole ++ fraction ≠ [])
    (hds : ∀ d ∈ whole ++ fraction, d.isDigit) :
    readDecimal (whole ++ '.' :: fraction) =
      some ⟨ofDigits (whole ++ fraction), -(fraction.length : Int)⟩ := by
  obtain ⟨hwhole, hfraction⟩ := List.forall_mem_append.1 hds
  have htake : (whole ++ '.' :: fraction).takeWhile Char.isDigit = whole := by
    rw [List.takeWhile_append_of_pos hwhole]
    simp
  have hdrop : (whole ++ '.' :: fraction).dropWhile Char.isDigit = '.' :: fraction := by
    rw [List.dropWhile_append_of_pos hwhole]
    simp
  have hrun : fraction.takeWhile Char.isDigit = fraction := List.takeWhile_eq_self_iff.2 hfraction
  have hend : fraction.dropWhile Char.isDigit = [] := List.dropWhile_eq_nil_iff.2 hfraction
  have hsome : (whole.isEmpty && fraction.isEmpty) = false := by simpa using hne
  simp [readDecimal, htake, hdrop, hrun, hend, hsome]

/-- A numeral is read as a decimal: it is no name, and has no sign. -/
theorem readLiteral_of_isNumeral (h : IsNumeral cs) :
    readLiteral cs = (readDecimal cs).map Decimal.toFloat := by
  have hmagnitude : readMagnitude cs = (readDecimal cs).map Decimal.toFloat := by
    have hinf := ofList_map_toLower_ne h "inf" (by decide)
    have hinfinity := ofList_map_toLower_ne h "infinity" (by decide)
    have hnan := ofList_map_toLower_ne h "nan" (by decide)
    simp only [readMagnitude, hinf, hinfinity, hnan, or_self, if_false]
  unfold readLiteral
  split
  · exact absurd h.all (by simp [isNumberChar])
  · exact absurd h.all (by simp [isNumberChar])
  · exact hmagnitude

end Numeral

/-! ### Reading by tokens -/

/-- A text with the tokens of an expression within the bounds is read as it. -/
theorem exprOfText_of_derives {cs : List Char} {ts : List Token} {e : Expr} {n : Nat}
    (hts : Spells cs ts) (he : Derives .sum n ts e) (hn : n ≤ maxNesting)
    (hheight : e.height ≤ maxHeight) : Expr.ofText (String.ofList cs) = .ok e := by
  have htokens : Token.ofText (String.ofList cs) = .ok ts := by
    rw [Token.ofText, String.toList_ofList]
    exact hts none
  rw [ofText_of_derives htokens he, if_pos ⟨hn, hheight⟩]

/-! ### Plain texts -/

/-- The parts of a plain text: digits, and behind the point digits that do not end in a zero. -/
structure PlainNumber where
  /-- Whether there is a minus sign in front. -/
  negative : Bool
  /-- The digits in front of the point. -/
  whole : List Char
  /-- The digits behind the point; without any there is no point. -/
  fraction : List Char
  whole_ne_nil : whole ≠ []
  isDigit_whole : ∀ c ∈ whole, c.isDigit
  isDigit_fraction : ∀ c ∈ fraction, c.isDigit
  getLast?_fraction_ne : ∀ c ∈ fraction.getLast?, c ≠ '0'

namespace PlainNumber

variable (p : PlainNumber)

/-! ### Text and worth -/

/-- The text without its sign. -/
def digitsText : List Char := p.whole ++ if p.fraction.isEmpty then [] else '.' :: p.fraction

/-- The text. -/
def text : List Char := if p.negative then '-' :: p.digitsText else p.digitsText

/-- The digits as a whole number, scaled by the places behind the point. -/
def decimal : Decimal := ⟨ofDigits (p.whole ++ p.fraction), -(p.fraction.length : Int)⟩

/-- The number that is written. -/
def value : ℚ := if p.negative then -p.decimal.value else p.decimal.value

/-- The tokens that the text is scanned to. -/
def tokens : List Token :=
  if p.negative then [.minus, .number (String.ofList p.digitsText)]
  else [.number (String.ofList p.digitsText)]

/-- The expression that the text is read as. -/
def expr : Expr :=
  if p.negative then .neg (.literal (String.ofList p.digitsText))
  else .literal (String.ofList p.digitsText)

/-- The text without its sign is a numeral. -/
theorem isNumeral_digitsText : IsNumeral p.digitsText := by
  unfold digitsText
  split
  · rw [List.append_nil]
    exact isNumeral_of_digits p.whole_ne_nil p.isDigit_whole
  · exact isNumeral_of_fraction (List.append_ne_nil_of_left_ne_nil p.whole_ne_nil _)
      (List.forall_mem_append.2 ⟨p.isDigit_whole, p.isDigit_fraction⟩)

/-- The text `0` is worth zero. -/
theorem value_decimal_of_zero (h : p.digitsText = ['0']) : p.decimal.value = 0 := by
  obtain ⟨c, whole, hwhole⟩ := List.exists_cons_of_ne_nil p.whole_ne_nil
  rw [digitsText, hwhole, List.cons_append, List.cons.injEq, List.append_eq_nil_iff] at h
  obtain ⟨rfl, rfl, hpoint⟩ := h
  have hfraction : p.fraction = [] := by
    by_contra hne
    rw [if_neg (by simpa using hne)] at hpoint
    cases hpoint
  have hdigits : ofDigits ['0'] = 0 := rfl
  simp [decimal, Decimal.value, hwhole, hfraction, hdigits]

/-! ### Quotients -/

section Quotient

variable (negative : Bool) (q places : Nat)

/-- The number `q / 10 ^ places`, with a minus sign if it is to be negative and its text is not the
one of zero. -/
def ofQuotient : PlainNumber where
  negative := negative && plainText q places != ['0']
  whole := digits (q / tenPow places)
  fraction := dropTrailingZeros (fractionDigits q places)
  whole_ne_nil := digits_ne_nil _
  isDigit_whole _ := isDigit_of_mem_digits
  isDigit_fraction _ h := isDigit_of_mem_fractionDigits (mem_of_mem_dropTrailingZeros h)
  getLast?_fraction_ne := getLast?_dropTrailingZeros_ne _

/-- The positional text of a quotient is plain. -/
theorem signedText_plainText :
    signedText negative (plainText q places) = (ofQuotient negative q places).text := rfl

/-- Zero has no sign. -/
theorem text_ofQuotient_ne : (ofQuotient negative q places).text ≠ ['-', '0'] := by
  unfold text
  split
  · rename_i hsign
    intro htext
    have hne : plainText q places ≠ ['0'] := bne_iff_ne.1 (Bool.and_eq_true_iff.1 hsign).2
    exact hne (List.cons.inj htext).2
  · intro htext
    have hall := (ofQuotient negative q places).isNumeral_digitsText.all
    rw [htext] at hall
    cases hall

/-- Zero is written with one digit, whatever the places. -/
theorem text_ofQuotient_zero : (ofQuotient negative 0 places).text = ['0'] := by
  have hzeros : fractionDigits 0 places = List.replicate places '0' := by
    refine eq_of_ofDigits_eq (fun c hc => isDigit_of_mem_fractionDigits hc) ?_ ?_ ?_
    · intro c hc
      rw [List.eq_of_mem_replicate hc]
      rfl
    · rw [length_fractionDigits, List.length_replicate]
    · rw [ofDigits_fractionDigits, ofDigits_replicate_zero, Nat.zero_mod]
  have hfraction : dropTrailingZeros (List.replicate places '0') = [] :=
    dropTrailingZeros_append_replicate_zero [] places
  have hplain : plainText 0 places = ['0'] := by
    rw [plainText, hzeros, hfraction, Nat.zero_div, digits_of_lt (by decide)]
    rfl
  rw [← signedText_plainText, hplain, signedText, bne_self_eq_false, Bool.and_false, if_neg]
  exact Bool.false_ne_true

/-- The digits behind the point of ten times as much, with one place more. -/
theorem fractionDigits_mul_ten :
    fractionDigits (q * 10) (places + 1) = fractionDigits q places ++ ['0'] := by
  have hzero : digitValue '0' = 0 := rfl
  refine eq_of_ofDigits_eq (fun c hc => isDigit_of_mem_fractionDigits hc) ?_ ?_ ?_
  · intro c hc
    rcases List.mem_append.1 hc with hc | hc
    · exact isDigit_of_mem_fractionDigits hc
    · rw [List.mem_singleton.1 hc]
      rfl
  · rw [List.length_append, length_fractionDigits, length_fractionDigits, List.length_singleton]
  · rw [ofDigits_append_singleton, ofDigits_fractionDigits, ofDigits_fractionDigits, tenPow_eq,
      Nat.pow_succ, Nat.mul_mod_mul_right, hzero, Nat.mul_comm, tenPow_eq, Nat.add_zero]

/-- Ten times as much with one place more is the same text. -/
theorem plainText_mul_ten : plainText (q * 10) (places + 1) = plainText q places := by
  have hwhole : q * 10 / tenPow (places + 1) = q / tenPow places := by
    rw [tenPow_eq, Nat.pow_succ, Nat.mul_div_mul_right _ _ (by decide), tenPow_eq]
  have hfraction : dropTrailingZeros (fractionDigits q places ++ ['0']) =
      dropTrailingZeros (fractionDigits q places) := by
    simp [dropTrailingZeros]
  rw [plainText, hwhole, fractionDigits_mul_ten, hfraction, plainText]

/-- The digits of a quotient are worth the quotient. -/
theorem value_decimal_ofQuotient :
    (ofQuotient negative q places).decimal.value = q / 10 ^ places := by
  obtain ⟨k, hk⟩ := exists_eq_dropTrailingZeros_append (fractionDigits q places)
  have hworth := ofDigits_append_fractionDigits q places
  have hlength := length_fractionDigits q places
  rw [hk, ← List.append_assoc, ofDigits_append, ofDigits_replicate_zero, List.length_replicate,
    Nat.add_zero] at hworth
  rw [hk, List.length_append, List.length_replicate] at hlength
  let fraction := dropTrailingZeros (fractionDigits q places)
  let digits := ofDigits (digits (q / tenPow places) ++ fraction)
  calc (ofQuotient negative q places).decimal.value
      = digits * 10 ^ (-(fraction.length : Int)) := rfl
    _ = digits * 10 ^ k / (10 ^ fraction.length * 10 ^ k) := by
        rw [zpow_neg, zpow_natCast, ← div_eq_mul_inv, mul_div_mul_right _ _ (by positivity)]
    _ = q / 10 ^ places := by
        rw [← pow_add, hlength]
        exact_mod_cast congrArg (fun n : Nat => (n : ℚ) / 10 ^ places) hworth

/-- The number is the quotient with its sign; zero has none, and needs none. -/
theorem value_ofQuotient :
    (ofQuotient negative q places).value = (if negative then -1 else 1) * (q / 10 ^ places) := by
  rw [value, value_decimal_ofQuotient]
  cases negative with
  | false => simp [ofQuotient]
  | true =>
      cases hzero : plainText q places != ['0'] with
      | true => simp [ofQuotient, hzero]
      | false =>
          have htext : plainText q places = ['0'] := by simpa using hzero
          have hworth := (ofQuotient true q places).value_decimal_of_zero htext
          rw [value_decimal_ofQuotient] at hworth
          simp [hworth]

end Quotient

/-! ### Reading -/

/-- The digits of a plain text are read at their worth. -/
theorem readDecimal_digitsText : readDecimal p.digitsText = some p.decimal := by
  have hne : p.whole ++ p.fraction ≠ [] := List.append_ne_nil_of_left_ne_nil p.whole_ne_nil _
  have hds : ∀ d ∈ p.whole ++ p.fraction, d.isDigit :=
    List.forall_mem_append.2 ⟨p.isDigit_whole, p.isDigit_fraction⟩
  unfold digitsText decimal
  cases hempty : p.fraction.isEmpty with
  | true =>
      have hnil : p.fraction = [] := by simpa using hempty
      rw [hnil, if_pos rfl, List.append_nil]
      exact readDecimal_of_digits p.whole_ne_nil p.isDigit_whole
  | false =>
      rw [if_neg Bool.false_ne_true]
      exact readDecimal_of_fraction hne hds

/-- A plain text without its sign is a literal. -/
theorem readLiteral_digitsText :
    readLiteral p.digitsText = some (Double.ofMagnitudeBits p.decimal.nearestBits) := by
  rw [readLiteral_of_isNumeral p.isNumeral_digitsText, readDecimal_digitsText, Option.map_some,
    Decimal.toFloat_eq]

/-- A plain text is scanned to a number, with a minus sign in front perhaps. -/
theorem spells_text : Spells p.text p.tokens := by
  unfold text tokens
  split
  · exact (spells_numeral p.isNumeral_digitsText).cons rfl
  · exact spells_numeral p.isNumeral_digitsText

theorem tokenOfText_text : Token.ofText (String.ofList p.text) = .ok p.tokens := by
  rw [Token.ofText, String.toList_ofList]
  exact p.spells_text none

/-- The tokens of a plain text form a literal or the opposite of one. -/
theorem derives_tokens : ∃ n ≤ 1, Derives .sum n p.tokens p.expr := by
  unfold tokens expr
  split
  · exact ⟨1, le_refl 1, .ofProduct (.ofUnary (.neg (.ofPower (.ofPrimary (.number _)))))⟩
  · exact ⟨0, Nat.zero_le 1, .ofProduct (.ofUnary (.ofPower (.ofPrimary (.number _))))⟩

theorem height_expr_le : p.expr.height ≤ 2 := by
  unfold expr
  split <;> simp [Expr.height]

/-- A plain text is a literal or the opposite of one. -/
theorem exprOfText_text : Expr.ofText (String.ofList p.text) = .ok p.expr := by
  obtain ⟨n, hn, hderives⟩ := p.derives_tokens
  exact exprOfText_of_derives p.spells_text hderives (hn.trans (by decide))
    (p.height_expr_le.trans (by decide))

/-- A plain text in parentheses is the same expression. -/
theorem exprOfText_parenthesized :
    Expr.ofText (String.ofList ('(' :: p.text ++ [')'])) = .ok p.expr := by
  obtain ⟨n, hn, hderives⟩ := p.derives_tokens
  exact exprOfText_of_derives (spells_parenthesized (p.spells_text none))
    (.ofProduct (.ofUnary (.ofPower (.ofPrimary (.group hderives)))))
    ((Nat.succ_le_succ hn).trans (by decide)) (p.height_expr_le.trans (by decide))

/-- What is written is worth the double nearest to it. -/
theorem fold_expr : p.expr.fold = .ok
    (if p.negative then -Double.ofMagnitudeBits p.decimal.nearestBits
      else Double.ofMagnitudeBits p.decimal.nearestBits) := by
  have hliteral : (Expr.literal (String.ofList p.digitsText)).fold =
      .ok (Double.ofMagnitudeBits p.decimal.nearestBits) := by
    rw [Expr.fold, String.toList_ofList, readLiteral_digitsText]
  unfold expr
  split
  · rw [Expr.fold, hliteral]
    rfl
  · exact hliteral

end PlainNumber

end Calculator
