/-
**The memory register.**

The register holds one number, zero at the start.  Adding and subtracting take the value of the
current entry and do nothing when it has none.

Main definitions

* `Calculator.Memory` — the register, with `add`, `subtract` and `clear`;
* `Calculator.Memory.isEmpty` — whether it holds zero, of either sign.
-/

set_option autoImplicit false

namespace Calculator

/-- The memory register. -/
structure Memory where
  /-- The number held. -/
  value : Float := 0
deriving DecidableEq, Repr

namespace Memory

/-- Adds a value, if there is one. -/
def add (m : Memory) : Option Float → Memory
  | some v => ⟨m.value + v⟩
  | none => m

/-- Subtracts a value, if there is one. -/
def subtract (m : Memory) : Option Float → Memory
  | some v => ⟨m.value - v⟩
  | none => m

/-- Back to zero, whatever was held. -/
def clear (_ : Memory) : Memory := ⟨0⟩

/-- Whether the register holds zero. -/
def isEmpty (m : Memory) : Bool := m.value == 0

end Memory

end Calculator
