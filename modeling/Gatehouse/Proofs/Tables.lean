/-
Keys, places and values of tables.

What `put` and `erase` do to what is found stands beside their definitions. This is the rest of the
theory of tables: which keys there are, at which place an entry stands, and what a table finds whose
values are given by its keys. Breakers, stores, settings and documents are all tables, so nothing
here speaks of any of them.

Keys are distinct wherever a table is built by `put`. What fails without that is said by the
hypothesis `table.keys.Nodup`: a filter may uncover a second entry, and an entry need not be the
one that is found.
-/
import Gatehouse.Table

set_option autoImplicit false

namespace Gatehouse.Table

variable {β : Type} {table : Table β} {key : String} {value : β}

/-! ## Keys -/

/-- A new value brings its key, and takes none away. -/
theorem mem_keys_put {k : String} : k ∈ (put key value table).keys ↔ k ∈ table.keys ∨ k = key := by
  induction table with
  | nil => simp [put, keys]
  | cons entry rest ih =>
    obtain ⟨first, v⟩ := entry
    unfold keys at ih ⊢
    by_cases h : first = key
    · simp only [put, h, if_true, List.map_cons, List.mem_cons]
      constructor
      · exact Or.inl
      · rintro (hmem | rfl)
        · exact hmem
        · exact .inl rfl
    · simp only [put, h, if_false, List.map_cons, List.mem_cons, ih, or_assoc]

/-- Keys stay distinct. -/
theorem keys_put_nodup (h : table.keys.Nodup) : (put key value table).keys.Nodup := by
  induction table with
  | nil => simp [put, keys]
  | cons entry rest ih =>
    obtain ⟨first, v⟩ := entry
    obtain ⟨hfirst, hrest⟩ := List.nodup_cons.1 h
    by_cases heq : first = key
    · simpa [put, heq, keys] using h
    · simp only [put, heq, if_false]
      refine List.nodup_cons.2 ⟨fun hmem => ?_, ih hrest⟩
      rcases mem_keys_put.1 hmem with hold | hnew
      · exact hfirst hold
      · exact heq hnew

theorem keys_filter_nodup (p : String × β → Bool) (h : table.keys.Nodup) :
    (keys (table.filter p)).Nodup :=
  h.sublist (List.filter_sublist.map _)

/-! ## Entries -/

/-- A value under a new key goes to the end. -/
theorem put_of_notMem (h : key ∉ table.keys) : put key value table = table ++ [(key, value)] := by
  induction table with
  | nil => rfl
  | cons entry rest ih =>
    obtain ⟨first, v⟩ := entry
    obtain ⟨hfirst, hrest⟩ := not_or.1 (mt List.mem_cons.2 h)
    rw [put, if_neg (Ne.symm hfirst), ih hrest, List.cons_append]

/-- No entry comes in but the new one. -/
theorem mem_put {entry : String × β} (h : entry ∈ put key value table) :
    entry = (key, value) ∨ entry ∈ table := by
  induction table with
  | nil => exact .inl (List.mem_singleton.1 h)
  | cons first rest ih =>
    rw [put] at h
    split at h
    · rename_i heq
      rcases List.mem_cons.1 h with hnew | hmem
      · exact .inl (heq ▸ hnew)
      · exact .inr (List.mem_cons_of_mem _ hmem)
    · rcases List.mem_cons.1 h with hold | hmem
      · exact .inr (hold ▸ List.mem_cons_self)
      · exact (ih hmem).imp_right (List.mem_cons_of_mem _)

/-- What is found is an entry. -/
theorem mem_of_lookup {α : Type} [BEq α] [LawfulBEq α] {key : α} {table : List (α × β)}
    (h : List.lookup key table = some value) : (key, value) ∈ table := by
  obtain ⟨before, after, hsplit, -⟩ := List.lookup_eq_some_iff.1 h
  rw [hsplit]
  exact List.mem_append_right before List.mem_cons_self

theorem lookup_eq_none_of_notMem (h : key ∉ table.keys) : List.lookup key table = none := by
  rw [List.lookup_eq_none_iff]
  intro entry hentry
  rw [bne_iff_ne]
  intro heq
  exact h (heq ▸ List.mem_map_of_mem hentry)

/-- A key is in a table if something is found under it. -/
theorem mem_keys_iff : key ∈ table.keys ↔ ∃ value, List.lookup key table = some value := by
  constructor
  · intro hmem
    obtain ⟨entry, hentry, rfl⟩ := List.mem_map.1 hmem
    cases hfound : List.lookup entry.1 table with
    | none => simpa using List.lookup_eq_none_iff.1 hfound entry hentry
    | some value => exact ⟨value, rfl⟩
  · rintro ⟨value, hvalue⟩
    exact List.mem_map_of_mem (mem_of_lookup hvalue)

/-- Behind entries with other keys, a key is found as if there were none of them. -/
theorem lookup_append_of_notMem (h : key ∉ table.keys) (rest : Table β) :
    List.lookup key (table ++ rest) = List.lookup key rest := by
  rw [List.lookup_append, lookup_eq_none_of_notMem h, Option.none_or]

/-- What a filter leaves of distinct keys is found as before. -/
theorem lookup_filter (p : String × β → Bool) (h : table.keys.Nodup) (key : String) :
    List.lookup key (table.filter p)
      = (List.lookup key table).filter fun value => p (key, value) := by
  induction table with
  | nil => rfl
  | cons entry rest ih =>
    obtain ⟨first, v⟩ := entry
    obtain ⟨hfirst, hrest⟩ := List.nodup_cons.1 h
    have hrest := ih hrest
    by_cases heq : first = key
    · subst heq
      -- the key is not among the rest, so nothing else can be found under it
      rw [lookup_eq_none_of_notMem hfirst] at hrest
      by_cases hp : p (first, v) = true
      · simp [hp, Option.filter]
      · simpa [hp, Option.filter] using hrest
    · -- an entry for another key does not matter, kept or not
      by_cases hp : p (first, v) = true
      · simp only [List.filter_cons, hp, if_true, lookup_cons_of_ne heq, hrest]
      · simp only [List.filter_cons, hp, lookup_cons_of_ne heq]
        exact hrest

/-! ## Places -/

theorem ne_of_getElem? {first : String} (hfirst : first ∉ table.keys) {place : Nat}
    (h : table[place]? = some (key, value)) : first ≠ key :=
  fun heq => hfirst (List.mem_map.2 ⟨_, List.mem_of_getElem? h, heq.symm⟩)

/-- Where a key stands already, a new value for it takes the place of the old one. -/
theorem put_of_getElem? (hdistinct : table.keys.Nodup) {place : Nat} {old : β}
    (h : table[place]? = some (key, old)) (value : β) :
    put key value table = table.set place (key, value) := by
  induction table generalizing place with
  | nil => cases h
  | cons entry rest ih =>
    obtain ⟨first, v⟩ := entry
    obtain ⟨hfirst, hrest⟩ : first ∉ keys rest ∧ (keys rest).Nodup := List.nodup_cons.1 hdistinct
    cases place with
    | zero =>
      obtain ⟨rfl, -⟩ := Prod.mk.inj (Option.some.inj h)
      exact if_pos rfl
    | succ place =>
      have hne : first ≠ key := ne_of_getElem? hfirst h
      rw [put, if_neg hne, ih hrest h, List.set_cons_succ]

/-- Whatever another key is given, an entry stays at its place. -/
theorem getElem?_put_of_ne {other : String} (hne : key ≠ other) {place : Nat}
    (h : table[place]? = some (other, value)) (new : β) :
    (put key new table)[place]? = some (other, value) := by
  induction table generalizing place with
  | nil => cases h
  | cons entry rest ih =>
    obtain ⟨first, v⟩ := entry
    by_cases hfirst : first = key
    · rw [put, if_pos hfirst]
      cases place with
      | zero =>
        have hkey : first = other := congrArg Prod.fst (Option.some.inj h)
        exact absurd (hfirst.symm.trans hkey) hne
      | succ place => exact h
    · rw [put, if_neg hfirst]
      cases place with
      | zero => exact h
      | succ place => exact ih h

/-- Of distinct keys, the entry at a place is the one that its key finds. -/
theorem lookup_of_getElem? (hdistinct : table.keys.Nodup) {place : Nat}
    (h : table[place]? = some (key, value)) : List.lookup key table = some value := by
  induction table generalizing place with
  | nil => cases h
  | cons entry rest ih =>
    obtain ⟨first, v⟩ := entry
    obtain ⟨hfirst, hrest⟩ : first ∉ keys rest ∧ (keys rest).Nodup := List.nodup_cons.1 hdistinct
    cases place with
    | zero =>
      obtain ⟨rfl, rfl⟩ := Prod.mk.inj (Option.some.inj h)
      exact List.lookup_cons_self
    | succ place =>
      have hne : first ≠ key := ne_of_getElem? hfirst h
      rw [lookup_cons_of_ne hne]
      exact ih hrest h

/-- Of distinct keys, the entries are what is found. -/
theorem lookup_eq_some_iff_mem (hdistinct : table.keys.Nodup) :
    List.lookup key table = some value ↔ (key, value) ∈ table := by
  refine ⟨mem_of_lookup, fun h => ?_⟩
  obtain ⟨place, hplace⟩ := List.mem_iff_getElem?.1 h
  exact lookup_of_getElem? hdistinct hplace

/-! ## Values that are given by their keys -/

/-- A new value for one of the keys changes what its key gives. -/
theorem put_map {keys : List String} (hkeys : keys.Nodup) (f : String → β) (hkey : key ∈ keys)
    (value : β) :
    put key value (keys.map fun k => (k, f k))
      = keys.map fun k => (k, if k = key then value else f k) := by
  induction keys with
  | nil => exact absurd hkey List.not_mem_nil
  | cons first rest ih =>
    obtain ⟨hfirst, hrest⟩ := List.nodup_cons.1 hkeys
    rw [List.map_cons, List.map_cons, put]
    by_cases heq : first = key
    · have hothers : ∀ k ∈ rest, (k, f k) = (k, if k = key then value else f k) := by
        intro k hk
        rw [if_neg fun hsame : k = key => hfirst (heq ▸ hsame ▸ hk)]
      rw [if_pos heq, if_pos heq, List.map_congr_left hothers]
    · rw [if_neg heq, if_neg heq, ih hrest ((List.mem_cons.1 hkey).resolve_left (Ne.symm heq))]

theorem lookup_map_of_mem {keys : List String} (f : String → β) (hkey : key ∈ keys) :
    List.lookup key (keys.map fun k => (k, f k)) = some (f key) := by
  induction keys with
  | nil => exact absurd hkey List.not_mem_nil
  | cons first rest ih =>
    rw [List.map_cons]
    by_cases heq : first = key
    · rw [heq, List.lookup_cons_self]
    · rw [lookup_cons_of_ne heq, ih ((List.mem_cons.1 hkey).resolve_left (Ne.symm heq))]

/-- Changing every value alike changes what is found. -/
theorem lookup_map_values {γ : Type} (g : β → γ) (key : String) (table : Table β) :
    List.lookup key (table.map fun entry => (entry.1, g entry.2))
      = (List.lookup key table).map g := by
  induction table with
  | nil => rfl
  | cons entry rest ih =>
    obtain ⟨k, v⟩ := entry
    rw [List.map_cons, List.lookup_cons, List.lookup_cons, ih]
    cases key == k <;> rfl

/-! ## Sorting -/

/-- A table that is sorted by its keys is in their order. -/
theorem pairwise_sort (table : Table β) :
    (table.mergeSort fun a b => decide (a.1 ≤ b.1)).Pairwise fun a b => a.1 ≤ b.1 := by
  have htotal : ∀ a b : String × β, (decide (a.1 ≤ b.1) || decide (b.1 ≤ a.1)) = true := by
    intro a b
    simpa only [Bool.or_eq_true, decide_eq_true_eq] using String.le_total a.1 b.1
  have htrans : ∀ a b c : String × β, decide (a.1 ≤ b.1) = true → decide (b.1 ≤ c.1) = true →
      decide (a.1 ≤ c.1) = true := by
    intro a b c hab hbc
    exact decide_eq_true (String.le_trans (of_decide_eq_true hab) (of_decide_eq_true hbc))
  exact (List.pairwise_mergeSort htrans htotal table).imp of_decide_eq_true

end Gatehouse.Table
