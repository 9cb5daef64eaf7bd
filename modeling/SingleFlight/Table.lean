/-
SingleFlight.Table — growing tables whose rows are known by their number.

Rows are added at the end and never taken out, so a number stands for the same
row for good.

* `Table.get?_add`, `Table.get?_update` — what the two ways of changing a table
  do to its rows; `get?_add_of_some` — a row that was there stays.
* `Table.update_update`, `Table.update_add_size` — a row that is changed twice, and a new one
  that is changed.
-/
namespace SingleFlight

/-- Rows by number. -/
structure Table (α : Type) where
  rows : List α := []

namespace Table

variable {α : Type}

/-- How many rows there are; the number that the next row will get. -/
def size (t : Table α) : Nat :=
  t.rows.length

/-- The row of a number. -/
def get? (t : Table α) (i : Nat) : Option α :=
  t.rows[i]?

/-- A table with one more row. -/
def add (t : Table α) (a : α) : Table α :=
  ⟨t.rows ++ [a]⟩

/-- A table with one row changed. -/
def update (t : Table α) (i : Nat) (f : α → α) : Table α :=
  ⟨t.rows.modify i f⟩

/-! ## Laws -/

@[simp] theorem size_add (t : Table α) (a : α) : (t.add a).size = t.size + 1 := by
  simp [add, size]

@[simp] theorem size_update (t : Table α) (i : Nat) (f : α → α) :
    (t.update i f).size = t.size := by
  simp [update, size]

/-- A new row stands under the number that was free; the others stay. -/
theorem get?_add (t : Table α) (a : α) (i : Nat) :
    (t.add a).get? i = if i = t.size then some a else t.get? i := by
  by_cases h : i = t.size
  · simp [h, add, get?, size]
  · rw [if_neg h]
    simp only [size, add, get?] at h ⊢
    rcases Nat.lt_or_gt_of_ne h with hlt | hgt
    · rw [List.getElem?_append_left hlt]
    · rw [List.getElem?_eq_none (by simp; omega), List.getElem?_eq_none (by omega)]

/-- No row stands under the number that is free. -/
@[simp] theorem get?_size (t : Table α) : t.get? t.size = none := by
  simp [get?, size]

theorem ne_size_of_get? {t : Table α} {i : Nat} {a : α} (h : t.get? i = some a) : i ≠ t.size := by
  rintro rfl
  rw [get?_size] at h
  cases h

/-- The numbers in use are those of rows. -/
theorem lt_size_iff {t : Table α} {i : Nat} : i < t.size ↔ ∃ a, t.get? i = some a := by
  constructor
  · intro h
    exact ⟨t.rows[i], List.getElem?_eq_getElem h⟩
  · rintro ⟨a, ha⟩
    exact (List.getElem?_eq_some_iff.mp ha).1

@[simp] theorem get?_add_size (t : Table α) (a : α) : (t.add a).get? t.size = some a := by
  rw [get?_add, if_pos rfl]

/-- A row that was there stays when another one is added. -/
theorem get?_add_of_some {t : Table α} {i : Nat} {a : α} (h : t.get? i = some a) (b : α) :
    (t.add b).get? i = some a := by
  rw [get?_add, if_neg (ne_size_of_get? h)]
  exact h

/-- An update changes the row of its number and no other. -/
theorem get?_update (t : Table α) (i j : Nat) (f : α → α) :
    (t.update i f).get? j = if i = j then (t.get? j).map f else t.get? j := by
  simp only [update, get?, List.getElem?_modify]
  by_cases h : i = j
  · simp [h]
  · simp [h]

/-- The row that is changed. -/
theorem get?_update_self {t : Table α} {i : Nat} {a : α} (h : t.get? i = some a) (f : α → α) :
    (t.update i f).get? i = some (f a) := by
  rw [get?_update, if_pos rfl, h]
  rfl

/-- A row that is changed twice. -/
theorem update_update (t : Table α) (i : Nat) (f g : α → α) :
    (t.update i f).update i g = t.update i fun a => g (f a) :=
  congrArg Table.mk (List.modify_modify_eq f g i t.rows)

/-- The new row is changed. -/
theorem update_add_size (t : Table α) (a : α) (f : α → α) :
    (t.add a).update t.size f = t.add (f a) := by
  obtain ⟨rows⟩ := t
  simp only [add, update, size]
  congr 1
  induction rows with
  | nil => rfl
  | cons b bs ih => simp [ih]

end Table

end SingleFlight
