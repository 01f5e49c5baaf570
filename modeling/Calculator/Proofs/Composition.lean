/-
**Texts put together.**

Two texts that write expressions can be put in parentheses, with an operation between them.  Each of
them is then scanned as it is by itself: a text does not see the parenthesis in front of it, and
nothing at its end runs into the one behind it, neither a word nor a number, nor a root sign that
looks for a parenthesis.  So the tokens of the whole are those of its parts, and what they form is
the operation on the two expressions.

The whole nests one level deeper than its parts, and its tree is higher by one.  Parts that reach a
bound are therefore refused together although each of them is accepted alone, and they are refused
for no other reason.

Main definitions

* `Calculator.NestsTo` — how deep parentheses, calls and minus signs nest in a text.

Main results

* `Calculator.nestsTo_iff` — a text nests in one way;
* `Calculator.derives_operation`, `Calculator.ofText_operation` — the grammar and the tokens of two
  operands in parentheses;
* `Calculator.exprOfText_operation` — **two texts in parentheses write the operation on what they
  write**, unless the whole exceeds a bound.
-/

import Calculator.Proofs.CanonicalTokens
import Calculator.Proofs.Spelling

set_option autoImplicit false

namespace Calculator

/-! ### Nesting of a text -/

/-- The text writes an expression, in which parentheses, calls and minus signs nest `n` deep. -/
def NestsTo (s : String) (n : Nat) : Prop :=
  ∃ ts e, Token.ofText s = .ok ts ∧ Derives .sum n ts e

variable {m n : Nat} {ts us : List Token} {x y : Expr}

/-- A text nests in one way. -/
theorem nestsTo_iff {s : String} (hs : Token.ofText s = .ok ts) (hx : Derives .sum n ts x)
    (k : Nat) : NestsTo s k ↔ k = n := by
  constructor
  · rintro ⟨ts', x', hs', hx'⟩
    obtain rfl : ts' = ts := Except.ok.inj (hs'.symm.trans hs)
    exact (hx'.unique hx).1
  · rintro rfl
    exact ⟨ts, x, hs, hx⟩

/-! ### Operands in parentheses -/

/-- Two sums in parentheses, with the token of an operation between them. -/
def operationTokens (op : BinOp) (ts us : List Token) : List Token :=
  .leftParen :: ts ++ [.rightParen] ++ op.token :: (.leftParen :: us ++ [.rightParen])

/-- In parentheses, any two expressions are the operands of an operation. -/
theorem derives_operation (op : BinOp) (hx : Derives .sum m ts x) (hy : Derives .sum n us y) :
    Derives .sum (max (m + 1) (n + 1)) (operationTokens op ts us) (.binary op x y) := by
  have hx' : Derives .product (m + 1) (.leftParen :: ts ++ [.rightParen]) x :=
    hx.group.ofPrimary.ofPower.ofUnary
  have hy' : Derives .unary (n + 1) (.leftParen :: us ++ [.rightParen]) y :=
    hy.group.ofPrimary.ofPower
  cases op with
  | add => exact .add rfl hx'.ofProduct hy'.ofUnary
  | sub => exact .add rfl hx'.ofProduct hy'.ofUnary
  | mul => exact (Derives.multiply rfl hx' hy').ofProduct
  | div => exact (Derives.multiply rfl hx' hy').ofProduct

/-- The signs of an operation are symbols. -/
theorem BinOp.ofSymbol?_sign {op : BinOp} {o : Char} (ho : o ∈ op.token.signs) :
    Token.ofSymbol? o = some op.token := by
  rcases sign_cases ho with hsymbol | ⟨-, hroot⟩ | ⟨-, hpi⟩
  · exact hsymbol
  · cases op <;> cases hroot
  · cases op <;> cases hpi

/-- The text of two operands in parentheses, with the sign of an operation between them. -/
def operationText (first : String) (o : Char) (second : String) : String :=
  "(" ++ first ++ ")" ++ o.toString ++ "(" ++ second ++ ")"

/-- Two texts in parentheses keep their tokens. -/
theorem ofText_operation {first second : String} {op : BinOp} {o : Char}
    (ho : o ∈ op.token.signs) (hts : Token.ofText first = .ok ts)
    (hus : Token.ofText second = .ok us) :
    Token.ofText (operationText first o second) = .ok (operationTokens op ts us) := by
  have hsymbol := BinOp.ofSymbol?_sign ho
  have htext : (operationText first o second).toList =
      parenthesized first.toList ++ o :: parenthesized second.toList := by
    simp [operationText, parenthesized]
  have hfirst : Spells (parenthesized first.toList) (.leftParen :: ts ++ [.rightParen]) :=
    spells_parenthesized hts
  have hsecond : Spells (o :: parenthesized second.toList)
      (op.token :: (.leftParen :: us ++ [.rightParen])) :=
    (spells_parenthesized hus).cons hsymbol
  rw [Token.ofText, htext]
  exact hfirst.append (separates_symbol hsymbol op.continues_token _) hsecond none

/-- **Two texts in parentheses write the operation on what they write**, whichever sign the
operation is written with, if each of them nests less deep than the bound and its tree is lower than
the bound; otherwise the whole is refused as too deep. -/
theorem exprOfText_operation {first second : String} {op : BinOp} {o : Char}
    (hfirst : Expr.ofText first = .ok x) (hsecond : Expr.ofText second = .ok y)
    (ho : o ∈ op.token.signs) :
    ∃ m n, (∀ k, NestsTo first k ↔ k = m) ∧ (∀ k, NestsTo second k ↔ k = n) ∧
      Expr.ofText (operationText first o second) =
        if m < maxNesting ∧ n < maxNesting ∧ x.height < maxHeight ∧ y.height < maxHeight then
          .ok (.binary op x y)
        else .error (.syntactic .tooDeep) := by
  obtain ⟨ts, m, hts, hx, -, -⟩ := ofText_eq_ok_iff_derives.1 hfirst
  obtain ⟨us, n, hus, hy, -, -⟩ := ofText_eq_ok_iff_derives.1 hsecond
  refine ⟨m, n, nestsTo_iff hts hx, nestsTo_iff hus hy, ?_⟩
  rw [ofText_of_derives (ofText_operation ho hts hus) (derives_operation op hx hy)]
  have hbounds : max (m + 1) (n + 1) ≤ maxNesting ∧ (Expr.binary op x y).height ≤ maxHeight ↔
      m < maxNesting ∧ n < maxNesting ∧ x.height < maxHeight ∧ y.height < maxHeight := by
    simp only [Expr.height]
    omega
  simp only [hbounds]

/-- A root whose parenthesis is not written, divided by a square with a blank in it. -/
theorem exprOfText_operation_root :
    let x : Expr := .call .sqrt (.literal "9")
    let y : Expr := .square (.constant .pi)
    Expr.ofText "√9)" = .ok x ∧ Expr.ofText "π^ 2" = .ok y ∧ '÷' ∈ BinOp.div.token.signs ∧
      ∃ m n, (∀ k, NestsTo "√9)" k ↔ k = m) ∧ (∀ k, NestsTo "π^ 2" k ↔ k = n) ∧
        Expr.ofText (operationText "√9)" '÷' "π^ 2") =
          if m < maxNesting ∧ n < maxNesting ∧ x.height < maxHeight ∧ y.height < maxHeight then
            .ok (.binary .div x y)
          else .error (.syntactic .tooDeep) := by
  intro x y
  have ⟨hx, hy⟩ : Expr.ofText "√9)" = .ok x ∧ Expr.ofText "π^ 2" = .ok y := by decide +kernel
  have ho : '÷' ∈ BinOp.div.token.signs := by decide
  exact ⟨hx, hy, ho, exprOfText_operation hx hy ho⟩

end Calculator
