/-
**Reading numbers in JSON.**

A reader of numbers stops exactly where the grammar lets a number end, and what it makes of the
number depends on nothing but the number.  Both directions go part by part: the digits, the
exponent, what stands behind the whole digits, the number.

Main definitions

* `Calculator.Json.Numeral.Ends` — a number that is written does not go on in what follows it;
* `Calculator.Json.Numeral.number?`, `Calculator.Json.Numeral.toFloat?` — what a number is read as,
  and as a double, unless it is out of range.

Main results

* `Calculator.Json.skipNumber_eq_ok` — a number is skipped exactly where one is written;
* `Calculator.Json.skipNumber_of_readNumber` — where a number is read, it could have been skipped;
* `Calculator.Json.readNumber_magnitudeText` — a number that is written is read as what it is;
* `Calculator.Json.readNumber_eq_ok` — **numbers are read exactly where they are written, as what
  they are**.
-/

import Calculator.Proofs.JsonGrammar
import Calculator.Proofs.Numerals

set_option autoImplicit false

namespace Calculator.Json

variable {cs ds r : List Char} {positive : Bool} {s : Nat} {e : Int} {x : Number}

/-! ### Runs of digits -/

/-- A text does not start with a digit. -/
def NoDigit (r : List Char) : Prop := r.head?.any Char.isDigit = false

theorem noDigit_nil : NoDigit [] := rfl

theorem noDigit_cons {c : Char} : NoDigit (c :: r) ↔ c.isDigit = false := by simp [NoDigit]

theorem noDigit_dropWhile (cs : List Char) : NoDigit (cs.dropWhile Char.isDigit) := by
  induction cs with
  | nil => exact noDigit_nil
  | cons c cs ih =>
      cases hc : c.isDigit with
      | true => simpa [hc] using ih
      | false => simp [hc, noDigit_cons]

theorem takeWhile_isDigit_append (hds : ∀ c ∈ ds, c.isDigit) (hr : NoDigit r) :
    (ds ++ r).takeWhile Char.isDigit = ds := by
  rw [List.takeWhile_append_of_pos hds]
  cases r with
  | nil => simp
  | cons c r => simp [noDigit_cons.1 hr]

theorem dropWhile_isDigit_append (hds : ∀ c ∈ ds, c.isDigit) (hr : NoDigit r) :
    (ds ++ r).dropWhile Char.isDigit = r := by
  rw [List.dropWhile_append_of_pos hds]
  cases r with
  | nil => rfl
  | cons c r => simp [noDigit_cons.1 hr]

/-- A text that starts with a digit starts with a run of digits that ends. -/
theorem exists_digits {c : Char} (hc : c.isDigit) (cs : List Char) :
    ∃ ds, (∀ d ∈ c :: ds, d.isDigit) ∧ cs = ds ++ cs.dropWhile Char.isDigit := by
  refine ⟨cs.takeWhile Char.isDigit, ?_, List.takeWhile_append_dropWhile.symm⟩
  intro d hd
  rcases List.mem_cons.1 hd with rfl | hd
  · exact hc
  · exact List.mem_takeWhile_imp hd

/-- A text that is no longer one with a character in front does not start with it. -/
theorem head?_ne_of_forall {c : Char} (h : ∀ ds, cs = c :: ds → False) : cs.head? ≠ some c := by
  intro hhead
  obtain ⟨ds, hds⟩ := List.head?_eq_some_iff.1 hhead
  exact h ds hds

/-! ### Exponents -/

/-- Whether an exponent is positive. -/
def Exponent.up (x : Exponent) : Bool := decide (x.sign ≠ ['-'])

theorem Exponent.letter_eq (x : Exponent) : x.letter = 'e' ∨ x.letter = 'E' := by
  simpa using x.letter_mem

/-- What stands behind the sign of an exponent that is read. -/
theorem exists_sign (cs : List Char) :
    ∃ sign ∈ [[], ['+'], ['-']], cs = sign ++ (readExponentSign cs).2 := by
  unfold readExponentSign
  split
  · exact ⟨['+'], by simp, rfl⟩
  · exact ⟨['-'], by simp, rfl⟩
  · exact ⟨[], by simp, rfl⟩

theorem Exponent.exists_digits_eq (x : Exponent) :
    ∃ d ds, x.digits = d :: ds ∧ d.isDigit ∧ ∀ c ∈ ds, c.isDigit := by
  obtain ⟨d, ds, hds⟩ := List.exists_cons_of_ne_nil x.digits_ne_nil
  have hdigits := x.isDigit_digits
  rw [hds] at hdigits
  exact ⟨d, ds, hds, List.forall_mem_cons.1 hdigits⟩

/-- The sign of an exponent that is written is read. -/
theorem readExponentSign_append (x : Exponent) (r : List Char) :
    readExponentSign (x.sign ++ (x.digits ++ r)) = (x.up, x.digits ++ r) := by
  obtain ⟨d, ds, hds, hd, -⟩ := x.exists_digits_eq
  have hplus : d ≠ '+' := by rintro rfl; exact absurd hd (by decide)
  have hminus : d ≠ '-' := by rintro rfl; exact absurd hd (by decide)
  have hsign := x.sign_mem
  simp only [List.mem_cons, List.not_mem_nil, or_false] at hsign
  rcases hsign with hsign | hsign | hsign
  · rw [hds, hsign]
    simp [readExponentSign, Exponent.up, hsign, hplus, hminus]
  · simp [readExponentSign, Exponent.up, hsign]
  · simp [readExponentSign, Exponent.up, hsign]

/-- An exponent is skipped after its letter exactly where one is written. -/
theorem skipPower_eq_ok (letter : Char) (hletter : letter ∈ ['e', 'E']) :
    skipPower cs = .ok r ↔
      ∃ x : Exponent, x.letter = letter ∧ cs = x.sign ++ (x.digits ++ r) ∧ NoDigit r := by
  constructor
  · intro h
    obtain ⟨sign, hsign, hcs⟩ := exists_sign cs
    unfold skipPower at h
    split at h
    · simp [stop] at h
    · rename_i d ds hrest
      split at h
      · rename_i hd
        cases h
        obtain ⟨run, hrun, hds⟩ := exists_digits hd ds
        refine ⟨⟨letter, sign, d :: run, hletter, hsign, by simp, hrun⟩, rfl, ?_,
          noDigit_dropWhile ds⟩
        rw [hcs, hrest]
        exact congrArg (sign ++ d :: ·) hds
      · simp [stopAtNext] at h
  · rintro ⟨x, -, rfl, hr⟩
    obtain ⟨d, ds, hds, hd, hrun⟩ := x.exists_digits_eq
    unfold skipPower
    rw [readExponentSign_append, hds]
    simp [hd, dropWhile_isDigit_append hrun hr]

/-- An optional exponent that is written does not go on in what follows it. -/
def ExponentEnds (r : List Char) : Option Exponent → Prop
  | some _ => NoDigit r
  | none => r.head? ≠ some 'e' ∧ r.head? ≠ some 'E'

/-- An optional exponent is skipped exactly where one is written or none. -/
theorem skipOptionalPower_eq_ok :
    skipOptionalPower cs = .ok r ↔ ∃ o, cs = exponentText o ++ r ∧ ExponentEnds r o := by
  constructor
  · intro h
    unfold skipOptionalPower at h
    split at h
    · obtain ⟨x, hx, rfl, hr⟩ := (skipPower_eq_ok 'e' (by simp)).1 h
      exact ⟨some x, by simp [exponentText, Exponent.text, hx], hr⟩
    · obtain ⟨x, hx, rfl, hr⟩ := (skipPower_eq_ok 'E' (by simp)).1 h
      exact ⟨some x, by simp [exponentText, Exponent.text, hx], hr⟩
    · rename_i he hE
      cases h
      exact ⟨none, rfl, head?_ne_of_forall he, head?_ne_of_forall hE⟩
  · rintro ⟨o, rfl, hends⟩
    cases o with
    | none =>
        unfold skipOptionalPower
        split
        · rename_i heq
          exact absurd (congrArg List.head? heq) hends.1
        · rename_i heq
          exact absurd (congrArg List.head? heq) hends.2
        · rfl
    | some x =>
        have hskip : skipPower (x.sign ++ (x.digits ++ r)) = .ok r :=
          (skipPower_eq_ok x.letter x.letter_mem).2 ⟨x, rfl, rfl, hends⟩
        rcases x.letter_eq with hletter | hletter <;>
          simpa [exponentText, Exponent.text, hletter, skipOptionalPower] using hskip

/-- An optional exponent does not start with a digit, nor with a point. -/
theorem head?_exponentText (o : Option Exponent) (hr : o = none → NoDigit r) :
    NoDigit (exponentText o ++ r) ∧
      ((exponentText o ++ r).head? = some '.' → o = none ∧ r.head? = some '.') := by
  cases o with
  | none => exact ⟨hr rfl, fun h => ⟨rfl, h⟩⟩
  | some x =>
      rcases x.letter_eq with hletter | hletter <;>
        simp [exponentText, Exponent.text, hletter, NoDigit]

/-! ### Numbers that are skipped -/

/-- What is written behind the whole digits of a number does not go on in what follows it. -/
structure TailEnds (fraction : List Char) (o : Option Exponent) (r : List Char) : Prop where
  digit : NoDigit r
  exponent : ExponentEnds r o
  point : fraction = [] → o = none → r.head? ≠ some '.'

/-- A number that is written does not go on in what follows it. -/
def Numeral.Ends (n : Numeral) (r : List Char) : Prop := TailEnds n.fraction n.exponent r

theorem fractionText_nil : fractionText [] = [] := rfl

theorem fractionText_cons (d : Char) (ds : List Char) :
    fractionText (d :: ds) = '.' :: d :: ds := rfl

theorem skipAfterWhole_of_ne (h : cs.head? ≠ some '.') :
    skipAfterWhole cs = skipOptionalPower cs := by
  unfold skipAfterWhole
  split
  · exact absurd rfl h
  · rfl

/-- Behind whole digits, a fraction and an exponent are skipped exactly where they are written. -/
theorem skipAfterWhole_eq_ok (hcs : NoDigit cs) :
    skipAfterWhole cs = .ok r ↔
      ∃ fraction o, (∀ c ∈ fraction, c.isDigit) ∧
        cs = fractionText fraction ++ (exponentText o ++ r) ∧ TailEnds fraction o r := by
  constructor
  · intro h
    unfold skipAfterWhole at h
    split at h
    · rename_i ds
      split at h
      · rename_i hhead
        obtain ⟨d, hd⟩ : ∃ d, ds.head? = some d ∧ d.isDigit := by
          simpa [Option.any_eq_true] using hhead
        obtain ⟨ds, rfl⟩ := List.head?_eq_some_iff.1 hd.1
        obtain ⟨o, hrest, hends⟩ := skipOptionalPower_eq_ok.1 h
        obtain ⟨run, hrun, hds⟩ := exists_digits hd.2 ds
        rw [List.dropWhile_cons_of_pos hd.2] at hrest
        have hstop := noDigit_dropWhile ds
        refine ⟨d :: run, o, hrun, ?_, ⟨?_, hends, by simp⟩⟩
        · rw [fractionText_cons, ← hrest]
          exact congrArg ('.' :: d :: ·) hds
        · cases o with
          | none => rwa [hrest] at hstop
          | some x => exact hends
      · simp [stopAtNext] at h
    · rename_i hpoint
      obtain ⟨o, rfl, hends⟩ := skipOptionalPower_eq_ok.1 h
      refine ⟨[], o, by simp, rfl, ?_, hends, ?_⟩
      · cases o with
        | none => exact hcs
        | some x => exact hends
      · rintro - rfl
        exact head?_ne_of_forall hpoint
  · rintro ⟨fraction, o, hfraction, rfl, hends⟩
    have hskip : skipOptionalPower (exponentText o ++ r) = .ok r :=
      skipOptionalPower_eq_ok.2 ⟨o, rfl, hends.exponent⟩
    have hhead := head?_exponentText o (fun _ => hends.digit)
    cases fraction with
    | nil =>
        rw [fractionText_nil, List.nil_append, skipAfterWhole_of_ne, hskip]
        intro h
        obtain ⟨ho, hr⟩ := hhead.2 h
        exact hends.point rfl ho hr
    | cons d ds =>
        have hd := hfraction d List.mem_cons_self
        have hds : ∀ c ∈ ds, c.isDigit := fun c hc => hfraction c (List.mem_cons_of_mem d hc)
        rw [fractionText_cons]
        simpa [skipAfterWhole, hd, dropWhile_isDigit_append hds hhead.1] using hskip

/-- What is written behind whole digits does not start with a digit. -/
theorem noDigit_fractionText (fraction : List Char) (hr : NoDigit r) :
    NoDigit (fractionText fraction ++ r) := by
  cases fraction with
  | nil => exact hr
  | cons d ds => rfl

/-- The whole digits of a number are one zero, or they start with another digit. -/
theorem Numeral.whole_cases (n : Numeral) :
    n.whole = ['0'] ∨
      ∃ c ds, n.whole = c :: ds ∧ c ≠ '0' ∧ c.isDigit ∧ ∀ d ∈ ds, d.isDigit := by
  obtain ⟨c, ds, hwhole⟩ := List.exists_cons_of_ne_nil n.whole_ne_nil
  have hdigits := n.isDigit_whole
  have hzero := n.whole_eq_of_zero
  rw [hwhole] at hdigits hzero ⊢
  by_cases hc : c = '0'
  · exact .inl (hzero (by rw [hc, List.head?_cons]))
  · exact .inr ⟨c, ds, rfl, hc, hdigits c List.mem_cons_self,
      fun d hd => hdigits d (List.mem_cons_of_mem c hd)⟩

/-- The whole digits of a number are skipped. -/
theorem skipNumber_whole (n : Numeral) (hr : NoDigit r) :
    skipNumber (n.whole ++ r) = skipAfterWhole r := by
  rcases n.whole_cases with hwhole | ⟨c, ds, hwhole, hzero, hc, hds⟩
  · rw [hwhole]
    exact if_neg (Bool.eq_false_iff.1 hr)
  · rw [hwhole, List.cons_append]
    unfold skipNumber
    split
    · rename_i heq
      cases heq
    · rename_i heq
      exact absurd (List.cons.inj heq).1 hzero
    · rename_i heq
      obtain ⟨rfl, rfl⟩ := List.cons.inj heq
      rw [if_pos hc, dropWhile_isDigit_append hds hr]

/-- A number is skipped exactly where one is written, with either sign in front. -/
theorem skipNumber_eq_ok (negative : Bool) :
    skipNumber cs = .ok r ↔
      ∃ n : Numeral, n.negative = negative ∧ cs = n.magnitudeText ++ r ∧ n.Ends r := by
  constructor
  · intro h
    unfold skipNumber at h
    split at h
    · simp [stop] at h
    · rename_i ds
      split at h
      · simp [stopAtNext] at h
      · rename_i hhead
        obtain ⟨fraction, o, hfraction, rfl, hends⟩ :=
          (skipAfterWhole_eq_ok (Bool.eq_false_iff.2 hhead)).1 h
        exact ⟨⟨negative, ['0'], fraction, o, by simp, by simp, by simp, hfraction⟩, rfl,
          by simp [Numeral.magnitudeText], hends⟩
    · rename_i c ds hzero
      split at h
      · rename_i hc
        obtain ⟨fraction, o, hfraction, hrest, hends⟩ :=
          (skipAfterWhole_eq_ok (noDigit_dropWhile ds)).1 h
        obtain ⟨run, hrun, hds⟩ := exists_digits hc ds
        refine ⟨⟨negative, c :: run, fraction, o, by simp, hrun, ?_, hfraction⟩, rfl, ?_, hends⟩
        · intro hhead
          exact absurd (by simpa using hhead) hzero
        · simp only [Numeral.magnitudeText, List.append_assoc]
          rw [← hrest]
          exact congrArg (c :: ·) hds
      · simp [stopAtNext] at h
  · rintro ⟨n, -, rfl, hends⟩
    have hhead := (head?_exponentText n.exponent fun _ => hends.digit).1
    rw [Numeral.magnitudeText, List.append_assoc, List.append_assoc,
      skipNumber_whole n (noDigit_fractionText n.fraction hhead)]
    exact (skipAfterWhole_eq_ok (noDigit_fractionText n.fraction hhead)).2
      ⟨n.fraction, n.exponent, n.isDigit_fraction, rfl, hends⟩

/-! ### What numbers are read as -/

/-- A significand with its power of ten as a number, unless it is out of range. -/
def float? (positive : Bool) (s : Nat) (e : Int) : Option Number :=
  (scaleByPower s e).map fun v => .float (withSign positive v)

theorem finishFloat_eq_ok {x' : Number} :
    finishFloat positive s e cs = .ok (x', r) ↔ float? positive s e = some x' ∧ r = cs := by
  unfold finishFloat float?
  cases scaleByPower s e with
  | none => simp [stop]
  | some v => simp [eq_comm]

/-- A significand with a power of ten and an exponent as a number, unless it is out of range.  Of an
exponent that is too large only the sign counts. -/
def Exponent.number? (p : Exponent) (positive : Bool) (s : Nat) (e : Int) : Option Number :=
  if maxExponent < ofDigits p.digits then
    if s ≠ 0 ∧ p.up then none else some (.float (withSign positive 0))
  else
    float? positive s
      (if p.up then e + (ofDigits p.digits : Int) else e - (ofDigits p.digits : Int))

/-- A whole number that fits into a significand. -/
def wholeNumber (positive : Bool) (s : Nat) : Number :=
  if positive then .natural s
  else if s = 0 ∨ twoPow 63 < s then .float (-Double.ofRatio s 1)
  else .negative s

/-- A significand with a power of ten and an optional exponent as a number, unless it is out of
range. -/
def scaled? (o : Option Exponent) (positive : Bool) (s : Nat) (e : Int) : Option Number :=
  match o with
  | some p => p.number? positive s e
  | none => float? positive s e

/-- What the digits in front of the point, of which some are dropped, become with what stands behind
them, unless it is out of range. -/
def tailNumber? (positive : Bool) (s dropped : Nat) (fraction : List Char) (o : Option Exponent) :
    Option Number :=
  if fraction = [] ∧ o = none ∧ dropped = 0 then some (wholeNumber positive s)
  else
    let (s, fitting, _) := absorb s fraction
    scaled? o positive s ((dropped : Int) - (fitting : Int))

/-- What a number is read as, unless it is out of range. -/
def Numeral.number? (n : Numeral) : Option Number :=
  let (s, _, dropped) := absorb 0 n.whole
  tailNumber? (!n.negative) s dropped n.fraction n.exponent

/-- The double that a number is read as, unless it is out of range. -/
def Numeral.toFloat? (n : Numeral) : Option Float := n.number?.map Number.toFloat

/-! ### Reading exponents -/

/-- Reading an exponent does not leave its digits. -/
theorem dropWhile_readExponentDigits (v : Nat) (cs : List Char) :
    (readExponentDigits v cs).2.1.dropWhile Char.isDigit = cs.dropWhile Char.isDigit := by
  fun_induction readExponentDigits v cs with
  | case1 => rfl
  | case2 v c cs hc => simp [hc]
  | case3 v c cs hc next hle ih => rw [ih, List.dropWhile_cons_of_pos hc]
  | case4 => rfl

/-- The digits of an exponent that is not too large are read to their end. -/
theorem readExponentDigits_rest {v : Nat} (h : (readExponentDigits v cs).2.2 = false) :
    (readExponentDigits v cs).2.1 = cs.dropWhile Char.isDigit := by
  fun_induction readExponentDigits v cs with
  | case1 => rfl
  | case2 => cases h
  | case3 v c cs hc next hle ih => rw [ih h, List.dropWhile_cons_of_pos hc]
  | case4 v c cs hc => rw [List.dropWhile_cons_of_neg hc]

theorem ofDigits_le_append (ps ds : List Char) : ofDigits ps ≤ ofDigits (ps ++ ds) := by
  rw [ofDigits_append]
  exact Nat.le_add_right_of_le (Nat.le_mul_of_pos_right _ (by positivity))

/-- The value of the digits of an exponent, those in front of a text included. -/
theorem readExponentDigits_append (hds : ∀ c ∈ ds, c.isDigit) (hr : NoDigit r) (ps : List Char)
    (hps : ofDigits ps ≤ maxExponent) :
    (readExponentDigits (ofDigits ps) (ds ++ r)).2.2 =
        decide (maxExponent < ofDigits (ps ++ ds)) ∧
      (ofDigits (ps ++ ds) ≤ maxExponent →
        (readExponentDigits (ofDigits ps) (ds ++ r)).1 = ofDigits (ps ++ ds)) := by
  induction ds generalizing ps with
  | nil =>
      cases r with
      | nil => simpa [readExponentDigits] using hps
      | cons c r => simpa [readExponentDigits, noDigit_cons.1 hr] using hps
  | cons d ds ih =>
      have hd := hds d List.mem_cons_self
      have hsplit : ps ++ d :: ds = ps ++ [d] ++ ds := by simp
      rw [List.cons_append, readExponentDigits, if_pos hd, hsplit, ← ofDigits_append_singleton]
      by_cases hmax : maxExponent < ofDigits (ps ++ [d])
      · have hle := ofDigits_le_append (ps ++ [d]) ds
        rw [if_pos hmax]
        exact ⟨(decide_eq_true (by omega)).symm, fun h => absurd h (by omega)⟩
      · rw [if_neg hmax]
        exact ih (fun c hc => hds c (List.mem_cons_of_mem d hc)) (ps ++ [d]) (by omega)

/-- An exponent that is read after its letter could have been skipped. -/
theorem skipPower_of_readPower (h : readPower positive s e cs = .ok (x, r)) :
    skipPower cs = .ok r := by
  unfold readPower at h
  unfold skipPower
  rcases hsign : readExponentSign cs with ⟨up, _ | ⟨c, ds⟩⟩
  · rw [hsign] at h
    cases h
  · rw [hsign] at h
    by_cases hc : c.isDigit
    · have hdrop := dropWhile_readExponentDigits 0 (c :: ds)
      have hrest := @readExponentDigits_rest (c :: ds) 0
      simp only [hc, if_true] at h ⊢
      rcases hread : readExponentDigits 0 (c :: ds) with ⟨value, rest, _ | _⟩
      · rw [hread] at h hrest
        have hdigits : rest = (c :: ds).dropWhile Char.isDigit := hrest rfl
        rw [List.dropWhile_cons_of_pos hc] at hdigits
        rw [← hdigits, (finishFloat_eq_ok.1 h).2]
      · rw [hread] at h hdrop
        simp only at h
        split at h
        · cases h
        · cases h
          rw [hdrop, List.dropWhile_cons_of_pos hc]
    · simp only [hc] at h
      cases h

/-- An exponent that is written is read as what it is. -/
theorem readPower_digits (p : Exponent) (hr : NoDigit r) :
    readPower positive s e (p.sign ++ (p.digits ++ r)) = .ok (x, r) ↔
      p.number? positive s e = some x := by
  obtain ⟨hexceeded, hvalue⟩ := readExponentDigits_append p.isDigit_digits hr [] (Nat.zero_le _)
  have hdrop := dropWhile_readExponentDigits 0 (p.digits ++ r)
  have hrest := @readExponentDigits_rest (p.digits ++ r) 0
  rw [dropWhile_isDigit_append p.isDigit_digits hr] at hdrop hrest
  obtain ⟨d, ds, hds, hd, -⟩ := p.exists_digits_eq
  unfold readPower Exponent.number?
  rw [readExponentSign_append]
  simp only [List.nil_append, ofDigits_nil] at hexceeded hvalue
  rw [hds] at hexceeded hvalue hdrop hrest ⊢
  simp only [List.cons_append, hd, if_true] at hexceeded hvalue hdrop hrest ⊢
  rcases hread : readExponentDigits 0 (d :: (ds ++ r)) with ⟨value, rest, _ | _⟩
  · rw [hread] at hexceeded hvalue hrest
    have hle : ofDigits (d :: ds) ≤ maxExponent := by simpa using hexceeded
    obtain rfl : rest = r := hrest rfl
    obtain rfl : value = ofDigits (d :: ds) := hvalue hle
    rw [if_neg (Nat.not_lt.2 hle)]
    simp [finishFloat_eq_ok]
  · rw [hread] at hexceeded hdrop
    have hlt : maxExponent < ofDigits (d :: ds) := by simpa using hexceeded
    simp only [if_pos hlt, hdrop]
    split <;> simp [stop]

/-! ### Reading numbers -/

/-- An optional exponent that is read could have been skipped. -/
theorem skipOptionalPower_of_readOptionalPower
    (h : readOptionalPower positive s e cs = .ok (x, r)) : skipOptionalPower cs = .ok r := by
  unfold readOptionalPower at h
  split at h
  · exact skipPower_of_readPower h
  · exact skipPower_of_readPower h
  · rename_i he hE
    obtain ⟨-, rfl⟩ := finishFloat_eq_ok.1 h
    exact skipOptionalPower_eq_ok.2 ⟨none, rfl, head?_ne_of_forall he, head?_ne_of_forall hE⟩

/-- An optional exponent that is written is read as what it is. -/
theorem readOptionalPower_exponentText {o : Option Exponent} (ho : ExponentEnds r o) :
    readOptionalPower positive s e (exponentText o ++ r) = .ok (x, r) ↔
      scaled? o positive s e = some x := by
  cases o with
  | none =>
      have hread : readOptionalPower positive s e r = finishFloat positive s e r := by
        unfold readOptionalPower
        split
        · exact absurd rfl ho.1
        · exact absurd rfl ho.2
        · rfl
      rw [show exponentText none ++ r = r from rfl, hread, finishFloat_eq_ok]
      exact and_iff_left rfl
  | some p =>
      rw [scaled?, ← readPower_digits p ho]
      rcases p.letter_eq with hletter | hletter <;>
        simp [exponentText, Exponent.text, hletter, readOptionalPower]

/-- Where neither fraction nor exponent is written, whole digits are read as they are. -/
theorem readAfterWhole_end (hr : TailEnds [] none r) (positive : Bool) (s dropped : Nat) :
    readAfterWhole positive s dropped r =
      if dropped = 0 then .ok (wholeNumber positive s, r)
      else finishFloat positive s (dropped : Int) r := by
  unfold readAfterWhole wholeNumber
  split
  · exact absurd rfl (hr.point rfl rfl)
  · exact absurd rfl hr.exponent.1
  · exact absurd rfl hr.exponent.2
  · by_cases hdropped : dropped = 0
    · rw [if_pos hdropped, if_neg (not_not.2 hdropped)]
      split
      · rfl
      · split <;> rfl
    · rw [if_neg hdropped, if_pos hdropped]

/-- Digits behind the point are read together with the exponent behind them. -/
theorem readFraction_append (hds : ∀ c ∈ ds, c.isDigit) (hne : ds ≠ []) (hr : NoDigit r) :
    readFraction positive s e (ds ++ r) =
      readOptionalPower positive (absorb s ds).1 (e - ((absorb s ds).2.1 : Int)) r := by
  unfold readFraction
  rw [takeWhile_isDigit_append hds hr, dropWhile_isDigit_append hds hr]
  simp [hne]

/-- What is written behind whole digits is read as what it makes of them. -/
theorem readAfterWhole_fractionText {fraction : List Char} {o : Option Exponent}
    (hfraction : ∀ c ∈ fraction, c.isDigit) (hends : TailEnds fraction o r) (dropped : Nat) :
    readAfterWhole positive s dropped (fractionText fraction ++ (exponentText o ++ r)) =
        .ok (x, r) ↔
      tailNumber? positive s dropped fraction o = some x := by
  cases fraction with
  | cons d ds =>
      have hhead := (head?_exponentText o fun _ => hends.digit).1
      rw [fractionText_cons]
      change readFraction positive s (dropped : Int) (d :: ds ++ (exponentText o ++ r)) = _ ↔ _
      rw [readFraction_append hfraction (by simp) hhead,
        readOptionalPower_exponentText hends.exponent]
      simp [tailNumber?]
  | nil =>
      rw [fractionText_nil, List.nil_append]
      cases o with
      | none =>
          rw [show exponentText none ++ r = r from rfl, readAfterWhole_end hends]
          by_cases hdropped : dropped = 0
          · simp [tailNumber?, hdropped]
          · simp [tailNumber?, hdropped, finishFloat_eq_ok, scaled?]
      | some p =>
          have hread : readAfterWhole positive s dropped (exponentText (some p) ++ r) =
              readOptionalPower positive s (dropped : Int) (exponentText (some p) ++ r) := by
            rcases p.letter_eq with hletter | hletter <;>
              simp [exponentText, Exponent.text, hletter, readAfterWhole, readOptionalPower]
          rw [hread, readOptionalPower_exponentText hends.exponent]
          simp [tailNumber?]

/-- What is read behind whole digits could have been skipped. -/
theorem skipAfterWhole_of_readAfterWhole {dropped : Nat}
    (h : readAfterWhole positive s dropped cs = .ok (x, r)) : skipAfterWhole cs = .ok r := by
  by_cases hend : cs.head? = some '.'
  · obtain ⟨ds, rfl⟩ := List.head?_eq_some_iff.1 hend
    cases ds with
    | nil => cases h
    | cons d ds =>
        change readFraction positive s (dropped : Int) (d :: ds) = _ at h
        unfold readFraction at h
        by_cases hd : d.isDigit
        · simp only [List.takeWhile_cons_of_pos hd, List.dropWhile_cons_of_pos hd] at h
          simpa [skipAfterWhole, hd] using skipOptionalPower_of_readOptionalPower h
        · simp only [List.takeWhile_cons_of_neg hd, List.isEmpty_nil, if_true] at h
          cases h
  · rw [skipAfterWhole_of_ne hend]
    unfold readAfterWhole at h
    split at h
    · exact absurd rfl hend
    · exact skipPower_of_readPower h
    · exact skipPower_of_readPower h
    · rename_i he hE
      have hrest : cs = r := by
        split at h
        · exact (finishFloat_eq_ok.1 h).2.symm
        · split at h
          · exact (Prod.mk.inj (Except.ok.inj h)).2
          · split at h <;> exact (Prod.mk.inj (Except.ok.inj h)).2
      rw [hrest] at he hE ⊢
      exact skipOptionalPower_eq_ok.2 ⟨none, rfl, head?_ne_of_forall he, head?_ne_of_forall hE⟩

/-- The whole digits of a number are read. -/
theorem readNumber_whole (n : Numeral) (hr : NoDigit r) :
    readNumber positive (n.whole ++ r) =
      readAfterWhole positive (absorb 0 n.whole).1 (absorb 0 n.whole).2.2 r := by
  rcases n.whole_cases with hwhole | ⟨c, ds, hwhole, hzero, hc, hds⟩
  · rw [hwhole]
    exact if_neg (Bool.eq_false_iff.1 hr)
  · rw [hwhole, List.cons_append]
    unfold readNumber
    split
    · rename_i heq
      cases heq
    · rename_i heq
      exact absurd (List.cons.inj heq).1 hzero
    · rename_i heq
      obtain ⟨rfl, rfl⟩ := List.cons.inj heq
      rw [if_pos hc, takeWhile_isDigit_append hds hr, dropWhile_isDigit_append hds hr]

/-- A number that is written is read as what it is. -/
theorem readNumber_magnitudeText {n : Numeral} (hends : n.Ends r) :
    readNumber (!n.negative) (n.magnitudeText ++ r) = .ok (x, r) ↔ n.number? = some x := by
  have hhead := (head?_exponentText n.exponent fun _ => hends.digit).1
  rw [Numeral.magnitudeText, List.append_assoc, List.append_assoc,
    readNumber_whole n (noDigit_fractionText n.fraction hhead),
    readAfterWhole_fractionText n.isDigit_fraction hends]
  rfl

/-- A number that is read could have been skipped. -/
theorem skipNumber_of_readNumber (h : readNumber positive cs = .ok (x, r)) :
    skipNumber cs = .ok r := by
  unfold readNumber at h
  unfold skipNumber
  split at h
  · cases h
  · split at h
    · cases h
    · rename_i hhead
      simpa [hhead] using skipAfterWhole_of_readAfterWhole h
  · split at h
    · rename_i hc
      simpa [hc] using skipAfterWhole_of_readAfterWhole h
    · cases h

/-- Numbers are read exactly where they are written, as what they are. -/
theorem readNumber_eq_ok :
    readNumber positive cs = .ok (x, r) ↔
      ∃ n : Numeral, n.negative = !positive ∧ cs = n.magnitudeText ++ r ∧ n.Ends r ∧
        n.number? = some x := by
  constructor
  · intro h
    obtain ⟨n, hnegative, rfl, hends⟩ :=
      (skipNumber_eq_ok !positive).1 (skipNumber_of_readNumber h)
    obtain rfl : positive = !n.negative := by simp [hnegative]
    exact ⟨n, hnegative, rfl, hends, (readNumber_magnitudeText hends).1 h⟩
  · rintro ⟨n, hnegative, rfl, hends, hnumber⟩
    obtain rfl : positive = !n.negative := by simp [hnegative]
    exact (readNumber_magnitudeText hends).2 hnumber

end Calculator.Json
