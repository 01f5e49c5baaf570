/-
**The history of results.**

The history lists the latest results, the most recent first, and keeps no more of them than its
capacity, which is at least one.

Main definitions

* `Calculator.HistoryItem` — a calculated expression with its result and the time of day;
* `Calculator.History` — the list, with `add`, `clear`, `get?` and `results`.

Main results

* `Calculator.History.head?_items_add` — a new item comes first, whatever the capacity;
* `Calculator.History.results_add` — and the oldest beyond the capacity drop out.
-/

set_option autoImplicit false

namespace Calculator

/-- A calculated expression. -/
structure HistoryItem where
  /-- The expression, as it was entered. -/
  expression : String
  /-- Its result. -/
  result : Float
  /-- The time of day of the result. -/
  time : String
deriving DecidableEq, Repr

/-- The latest results. -/
structure History where
  /-- The results, the most recent first. -/
  items : List HistoryItem
  /-- How many of them are kept. -/
  capacity : Nat
  capacity_pos : 0 < capacity
  length_items_le : items.length ≤ capacity

namespace History

/-- The capacity of a history that is not asked for another one. -/
def defaultCapacity : Nat := 10

/-- The empty history of a capacity; one result is kept even if none is asked for. -/
def empty (capacity : Nat) : History where
  items := []
  capacity := max 1 capacity
  capacity_pos := by omega
  length_items_le := by simp

/-- A new result in front; beyond the capacity the oldest drops out. -/
def add (h : History) (item : HistoryItem) : History where
  items := (item :: h.items).take h.capacity
  capacity := h.capacity
  capacity_pos := h.capacity_pos
  length_items_le := List.length_take_le _ _

/-- No results, at the same capacity. -/
def clear (h : History) : History where
  items := []
  capacity := h.capacity
  capacity_pos := h.capacity_pos
  length_items_le := by simp

/-- The number of results. -/
def size (h : History) : Nat := h.items.length

/-- The results with their expressions, whatever the time of day was. -/
def results (h : History) : List (String × Float) :=
  h.items.map fun item => (item.expression, item.result)

/-- The result at an index, the most recent at zero. -/
def get? (h : History) (index : Nat) : Option HistoryItem := h.items[index]?

@[simp] theorem items_add (h : History) (item : HistoryItem) :
    (h.add item).items = (item :: h.items).take h.capacity := rfl

@[simp] theorem capacity_add (h : History) (item : HistoryItem) :
    (h.add item).capacity = h.capacity := rfl

@[simp] theorem results_add (h : History) (item : HistoryItem) :
    (h.add item).results = ((item.expression, item.result) :: h.results).take h.capacity := by
  simp [results, List.map_take]

/-- A new item is the first, since at least one is kept. -/
theorem head?_items_add (h : History) (item : HistoryItem) :
    (h.add item).items.head? = some item := by
  obtain ⟨n, hn⟩ := Nat.exists_eq_add_of_lt h.capacity_pos
  simp [hn]

end History

end Calculator
