/-
**No failure is masked by what is evaluated after it.**

An expression can go wrong in two ways.  A part can fail, with an error; then nothing above it has a
value, and the error that comes out is the one of the part that is evaluated first.  Or a part can
have the undefined value, which is no error: a divisor that is undefined is not equal to zero, and
under a root it is not less than zero, so no check stops it.  It comes out nevertheless, since every
operation on the undefined value is undefined and a trigonometric function of it is an error.

The parts of an expression are listed in the order in which they are evaluated, operands before the
operation and the left operand first; the list ends with the expression itself.

Main definitions

* `Calculator.Expr.postorder` — the parts of an expression, in the order of evaluation;
* `Calculator.Expr.FirstFails` — the first of some expressions that fails does so with this error;
* `Calculator.Expr.IsUndefined` — the expression has the undefined value.

Main results

* `Calculator.Double.isNaN_packed_unary`, `Calculator.Double.isNaN_packed_binary` — operations on
  the undefined value are undefined, with one lemma for each operation;
* `Calculator.Expr.firstFails_postorder_iff` — an expression fails with the error of its first
  failing part;
* `Calculator.Expr.isNaN_of_mem_postorder` — an undefined part makes the whole undefined,
  unless the whole fails;
* `Calculator.Expr.evaluate_eq_error_of_part` — both ways for the value that is shown.
-/

import Calculator.Expr.Value
import Calculator.Proofs.DoubleSign

set_option autoImplicit false

namespace Calculator

/-! ### The undefined value -/

namespace Double

open Float.Model (UnpackedFloat)

section Undefined

variable {v w : Float}

theorem isNaN_packed_notANumber : (packed .notANumber).isNaN = true := rfl

/-- An operation that keeps the undefined value still does so once its result is packed. -/
theorem isNaN_packed_unary {f : UnpackedFloat → UnpackedFloat} (hf : f .notANumber = .notANumber)
    (h : v.isNaN = true) : (packed (f (unpacked v))).isNaN = true := by
  rw [isNaN_iff.1 h, hf]
  exact isNaN_packed_notANumber

/-- The same for an operation with two operands, which keeps the undefined value on either side. -/
theorem isNaN_packed_binary {f : UnpackedFloat → UnpackedFloat → UnpackedFloat}
    (hleft : ∀ x, f .notANumber x = .notANumber) (hright : ∀ x, f x .notANumber = .notANumber)
    (h : v.isNaN = true ∨ w.isNaN = true) :
    (packed (f (unpacked v) (unpacked w))).isNaN = true := by
  obtain h | h := h
  · exact isNaN_packed_unary (f := fun x => f x (unpacked w)) (hleft _) h
  · exact isNaN_packed_unary (hright _) h

theorem isNaN_neg (h : v.isNaN = true) : (-v).isNaN = true :=
  isNaN_packed_unary rfl h

theorem isNaN_sqrt (h : v.isNaN = true) : v.sqrt.isNaN = true :=
  isNaN_packed_unary (f := UnpackedFloat.sqrt format) rfl h

theorem isNaN_add (h : v.isNaN = true ∨ w.isNaN = true) : (v + w).isNaN = true :=
  isNaN_packed_binary (f := UnpackedFloat.add format) (fun _ => rfl) (fun x => by cases x <;> rfl) h

theorem isNaN_sub (h : v.isNaN = true ∨ w.isNaN = true) : (v - w).isNaN = true :=
  isNaN_packed_binary (f := UnpackedFloat.sub format) (fun _ => rfl) (fun x => by cases x <;> rfl) h

theorem isNaN_mul (h : v.isNaN = true ∨ w.isNaN = true) : (v * w).isNaN = true :=
  isNaN_packed_binary (f := UnpackedFloat.mul format) (fun _ => rfl) (fun x => by cases x <;> rfl) h

theorem isNaN_div (h : v.isNaN = true ∨ w.isNaN = true) : (v / w).isNaN = true :=
  isNaN_packed_binary (f := UnpackedFloat.div format) (fun _ => rfl) (fun x => by cases x <;> rfl) h

end Undefined

end Double

/-! ### Operations on the undefined value -/

section Operations

variable {a b v : Float}

/-- An operation that succeeds on an undefined operand has an undefined value. -/
theorem BinOp.isNaN_of_apply {op : BinOp} (h : op.apply a b = .ok v)
    (hab : a.isNaN = true ∨ b.isNaN = true) : v.isNaN = true := by
  cases op with
  | add =>
      cases h
      exact Double.isNaN_add hab
  | sub =>
      cases h
      exact Double.isNaN_sub hab
  | mul =>
      cases h
      exact Double.isNaN_mul hab
  | div =>
      simp only [BinOp.apply] at h
      split at h
      · cases h
      · cases h
        exact Double.isNaN_div hab

/-- There is no trigonometric function of the undefined value. -/
theorem Trig.ofDegrees_of_isNaN (t : Trig) (ha : a.isNaN = true) :
    t.ofDegrees a = .error .notFinite := by
  simp [Trig.ofDegrees, Double.isFinite_of_isNaN ha]

/-- A function that succeeds on the undefined value, as the root does, has an undefined value. -/
theorem Function.isNaN_of_apply {f : Function} (h : f.apply a = .ok v) (ha : a.isNaN = true) :
    v.isNaN = true := by
  unfold Function.apply at h
  split at h
  · rw [Trig.ofDegrees_of_isNaN _ ha] at h
    cases h
  · split at h
    · cases h
    · cases h
      exact Double.isNaN_sqrt ha

end Operations

namespace Expr

/-! ### The parts of an expression -/

/-- The parts of an expression in the order in which they are evaluated: operands before the
operation, the left one first. -/
def postorder : Expr → List Expr
  | literal text => [literal text]
  | constant k => [constant k]
  | neg x => x.postorder ++ [neg x]
  | binary op x y => x.postorder ++ y.postorder ++ [binary op x y]
  | percent x => x.postorder ++ [percent x]
  | square x => x.postorder ++ [square x]
  | call f x => x.postorder ++ [call f x]

/-- An expression is a part of itself. -/
@[simp] theorem mem_postorder_self (e : Expr) : e ∈ e.postorder := by
  cases e <;> simp [postorder]

/-! ### The first part that fails -/

/-- Why an expression fails, if it does. -/
def failure? (e : Expr) : Option ArithmeticError :=
  match e.fold with
  | .error f => some f
  | .ok _ => none

theorem failure?_eq_some_iff {e : Expr} {f : ArithmeticError} :
    e.failure? = some f ↔ e.fold = .error f := by
  unfold failure?
  split <;> simp_all

theorem failure?_eq_none_iff {e : Expr} : e.failure? = none ↔ ∃ v, e.fold = .ok v := by
  unfold failure?
  split <;> simp_all

/-- The first of the expressions `es` that fails does so with the error `f`. -/
def FirstFails (es : List Expr) (f : ArithmeticError) : Prop :=
  ∃ before x after, es = before ++ x :: after ∧ (∀ y ∈ before, ∃ v, y.fold = .ok v) ∧
    x.fold = .error f

theorem firstFails_iff {es : List Expr} {f : ArithmeticError} :
    FirstFails es f ↔ es.findSome? failure? = some f := by
  simp only [FirstFails, List.findSome?_eq_some_iff, failure?_eq_some_iff, failure?_eq_none_iff]
  constructor
  · rintro ⟨before, x, after, hes, hbefore, hx⟩
    exact ⟨before, x, after, hes, hx, hbefore⟩
  · rintro ⟨before, x, after, hes, hx, hbefore⟩
    exact ⟨before, x, after, hes, hbefore, hx⟩

/-- What is evaluated after `x` fails as `x` does, if `x` fails. -/
theorem or_failure?_of_bind {x e : Expr} {g : Float → Except ArithmeticError Float}
    (h : e.fold = x.fold >>= g) : x.failure?.or e.failure? = e.failure? := by
  cases hx : x.fold with
  | error f =>
      have he : e.fold = .error f := by rw [h, hx, error_bind]
      rw [failure?_eq_some_iff.2 hx, failure?_eq_some_iff.2 he]
      rfl
  | ok a => rw [failure?_eq_none_iff.2 ⟨a, hx⟩, Option.none_or]

/-- An expression fails as the first of its parts that fails, itself included. -/
theorem findSome?_postorder (e : Expr) : e.postorder.findSome? failure? = e.failure? := by
  have hsingle (x : Expr) : [x].findSome? failure? = x.failure? := by
    cases hx : x.failure? <;> simp [hx]
  induction e with
  | literal text => exact hsingle _
  | constant k => exact hsingle _
  | neg x ih | percent x ih | square x ih | call f x ih =>
      rw [postorder, List.findSome?_append, ih, hsingle]
      exact or_failure?_of_bind rfl
  | binary op x y ihx ihy =>
      rw [postorder, List.findSome?_append, List.findSome?_append, ihx, ihy, hsingle,
        Option.or_assoc]
      have hleft : x.failure?.or (binary op x y).failure? = (binary op x y).failure? :=
        or_failure?_of_bind rfl
      cases hx : x.failure? with
      | some f =>
          rw [hx] at hleft
          exact hleft
      | none =>
          -- the left operand has a value, so the operation is what follows the right one
          obtain ⟨a, ha⟩ := failure?_eq_none_iff.1 hx
          rw [Option.none_or]
          exact or_failure?_of_bind (g := op.apply a) (by rw [fold, ha, ok_bind])

/-- An expression fails with an error if and only if its first failing part does. -/
theorem firstFails_postorder_iff {e : Expr} {f : ArithmeticError} :
    FirstFails e.postorder f ↔ e.fold = .error f := by
  rw [firstFails_iff, findSome?_postorder, failure?_eq_some_iff]

/-! ### Undefined parts -/

/-- The expression has the undefined value. -/
def IsUndefined (e : Expr) : Prop := ∃ v, e.fold = .ok v ∧ v.isNaN = true

/-- If an expression with an undefined part has a value, it is undefined. -/
theorem isNaN_of_mem_postorder {e x : Expr} {v : Float} (hv : e.fold = .ok v)
    (hx : x ∈ e.postorder) (hundefined : x.IsUndefined) : v.isNaN = true := by
  have hself {e : Expr} {v : Float} (hv : e.fold = .ok v) (hx : x ∈ [e]) : v.isNaN = true := by
    obtain ⟨w, hw, hnan⟩ := hundefined
    rw [List.mem_singleton.1 hx, hv] at hw
    cases hw
    exact hnan
  -- an undefined part of an operand makes the operand undefined, and the operation keeps that
  induction e generalizing v with
  | literal text => exact hself hv hx
  | constant k => exact hself hv hx
  | neg y ih =>
      obtain hx | hx := List.mem_append.1 hx
      · obtain ⟨a, ha, hop⟩ := bind_eq_ok.1 hv
        cases hop
        exact Double.isNaN_neg (ih ha hx)
      · exact hself hv hx
  | binary op y z ihy ihz =>
      obtain hx | hx := List.mem_append.1 hx
      · obtain ⟨a, ha, hv⟩ := bind_eq_ok.1 hv
        obtain ⟨b, hb, hop⟩ := bind_eq_ok.1 hv
        exact BinOp.isNaN_of_apply hop ((List.mem_append.1 hx).imp (ihy ha) (ihz hb))
      · exact hself hv hx
  | percent y ih =>
      obtain hx | hx := List.mem_append.1 hx
      · obtain ⟨a, ha, hop⟩ := bind_eq_ok.1 hv
        cases hop
        exact Double.isNaN_div (.inl (ih ha hx))
      · exact hself hv hx
  | square y ih =>
      obtain hx | hx := List.mem_append.1 hx
      · obtain ⟨a, ha, hop⟩ := bind_eq_ok.1 hv
        cases hop
        exact Double.isNaN_mul (.inl (ih ha hx))
      · exact hself hv hx
  | call f y ih =>
      obtain hx | hx := List.mem_append.1 hx
      · obtain ⟨a, ha, hop⟩ := bind_eq_ok.1 hv
        exact Function.isNaN_of_apply hop (ih ha hx)
      · exact hself hv hx

/-! ### What comes out -/

/-- **No failure is masked.**  If a part of an expression fails, the expression fails with the error
of the first part that does, in the order of evaluation; if no part fails and one of them has the
undefined value, the value of the expression counts as not finite. -/
theorem evaluate_eq_error_of_part (e : Expr) :
    ((∃ x ∈ e.postorder, ∃ f, x.fold = .error f) →
        ∃ f, FirstFails e.postorder f ∧ e.evaluate = .error f) ∧
      ((∀ x ∈ e.postorder, ∃ v, x.fold = .ok v) → (∃ x ∈ e.postorder, x.IsUndefined) →
        e.evaluate = .error .notFinite) := by
  constructor
  · rintro ⟨x, hx, f, hf⟩
    obtain ⟨f', hfirst⟩ : ∃ f', e.postorder.findSome? failure? = some f' :=
      Option.isSome_iff_exists.1
        (List.findSome?_isSome_iff.2 ⟨x, hx, by rw [failure?_eq_some_iff.2 hf]; rfl⟩)
    have hfails : FirstFails e.postorder f' := firstFails_iff.2 hfirst
    refine ⟨f', hfails, ?_⟩
    rw [evaluate, firstFails_postorder_iff.1 hfails]
  · rintro hvalues ⟨x, hx, hundefined⟩
    obtain ⟨v, hv⟩ := hvalues e e.mem_postorder_self
    have hnan : v.isNaN = true := isNaN_of_mem_postorder hv hx hundefined
    simp [evaluate, hv, Double.isFinite_of_isNaN hnan]

/-- In `2/0+√(-1)` both operands fail, the left one first; in `√(inf-inf)` nothing fails, and the
undefined difference passes the check under the root. -/
theorem evaluate_eq_error_of_part_root :
    (let root := call .sqrt (neg (literal "1"));
      let e := binary .add (binary .div (literal "2") (literal "0")) root;
      root.fold = .error .outOfDomain ∧
        FirstFails e.postorder .divisionByZero ∧ e.evaluate = .error .divisionByZero) ∧
      (let difference := binary .sub (literal "inf") (literal "inf");
        let e := call .sqrt difference;
        (∀ x ∈ e.postorder, ∃ v, x.fold = .ok v) ∧ difference.IsUndefined ∧
          e.evaluate = .error .notFinite) := by
  constructor
  · intro root e
    have hroot : root.fold = .error .outOfDomain := by
      rw [← failure?_eq_some_iff]
      decide +kernel
    have hvalue : e.fold = .error .divisionByZero := rfl
    obtain ⟨f, hfirst, hf⟩ := (evaluate_eq_error_of_part e).1 ⟨_, by simp [e, postorder], _, hroot⟩
    have hdivision : f = .divisionByZero := by
      rw [firstFails_postorder_iff, hvalue] at hfirst
      cases hfirst
      rfl
    subst hdivision
    exact ⟨hroot, hfirst, hf⟩
  · intro difference e
    have hvalues : ∀ x ∈ e.postorder, ∃ v, x.fold = .ok v := by
      simp only [← failure?_eq_none_iff]
      decide
    have hundefined : difference.IsUndefined := ⟨_, rfl, rfl⟩
    exact ⟨hvalues, hundefined,
      (evaluate_eq_error_of_part e).2 hvalues ⟨_, by simp [e, postorder], hundefined⟩⟩

end Expr

end Calculator
