/-
Tables: values under text keys, in order of first insertion.

A table is a plain list of pairs. `put` and `erase` keep its keys distinct, and everything that
matters about them is said through `List.lookup`.
-/

set_option autoImplicit false

namespace Gatehouse

/-- **Table** of values by key. -/
abbrev Table (β : Type) := List (String × β)

namespace Table

variable {β : Type}

/-- Puts a value in the place of the one with its key, or at the end. -/
def put (key : String) (value : β) : Table β → Table β
  | [] => [(key, value)]
  | (k, v) :: rest => if k = key then (k, value) :: rest else (k, v) :: put key value rest

/-- Takes out what is under a key. -/
def erase (key : String) (table : Table β) : Table β := table.filter fun entry => entry.1 != key

/-- The keys, in order. -/
def keys (table : Table β) : List String := table.map (·.1)

/-! ## What `lookup` finds -/

theorem lookup_cons_of_ne {key k : String} (h : k ≠ key) (v : β) (rest : Table β) :
    List.lookup key ((k, v) :: rest) = List.lookup key rest := by
  rw [List.lookup_cons, beq_eq_false_iff_ne.2 (Ne.symm h)]

/-- A value that has been put is found. -/
@[simp] theorem lookup_put_self (key : String) (value : β) (table : Table β) :
    List.lookup key (put key value table) = some value := by
  induction table with
  | nil => simp [put]
  | cons entry rest ih =>
    obtain ⟨k, v⟩ := entry
    by_cases h : k = key
    · simp [put, h]
    · simp only [put, h, if_false, lookup_cons_of_ne h, ih]

/-- Under other keys the same is found as before. -/
theorem lookup_put_of_ne {key other : String} (h : key ≠ other) (value : β) (table : Table β) :
    List.lookup other (put key value table) = List.lookup other table := by
  induction table with
  | nil => simp [put, lookup_cons_of_ne h]
  | cons entry rest ih =>
    obtain ⟨k, v⟩ := entry
    by_cases hk : k = key
    · subst hk
      simp [put, lookup_cons_of_ne h]
    · simp only [put, hk, if_false, List.lookup_cons, ih]

/-- What has been erased is not found. -/
@[simp] theorem lookup_erase_self (key : String) (table : Table β) :
    List.lookup key (erase key table) = none := by
  induction table with
  | nil => rfl
  | cons entry rest ih =>
    obtain ⟨k, v⟩ := entry
    unfold erase at ih ⊢
    by_cases h : k = key
    · simpa [h] using ih
    · simp only [List.filter_cons, bne_iff_ne, ne_eq, h, not_false_eq_true, if_true,
        lookup_cons_of_ne h, ih]

theorem lookup_erase_of_ne {key other : String} (h : key ≠ other) (table : Table β) :
    List.lookup other (erase key table) = List.lookup other table := by
  induction table with
  | nil => rfl
  | cons entry rest ih =>
    obtain ⟨k, v⟩ := entry
    unfold erase at ih ⊢
    by_cases hk : k = key
    · subst hk
      simpa [lookup_cons_of_ne h] using ih
    · simp only [List.filter_cons, bne_iff_ne, ne_eq, hk, not_false_eq_true, if_true,
        List.lookup_cons, ih]

end Table
end Gatehouse
