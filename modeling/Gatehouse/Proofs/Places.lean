/-
Places in a list.

A run, a declaration or a history is a list, and what is said of one of its elements is said of the
elements before it and after it as well. These are the statements about a list with one more element
at its end that inductions from the end need.

A text is read by cutting it: into all pieces between separators, or at the first element of a kind.
What is cut off has no such element, and does not depend on what comes after one.
-/
import Mathlib.Data.List.Basic

set_option autoImplicit false

namespace Gatehouse

variable {α : Type}

/-- A place in a list with one more element at its end is a place in the list, or the new one. -/
theorem concat_eq_append_cons_iff {l before after : List α} {a x : α} :
    l ++ [a] = before ++ x :: after
      ↔ (∃ rest, l = before ++ x :: rest ∧ after = rest ++ [a])
        ∨ l = before ∧ a = x ∧ after = [] := by
  constructor
  · intro h
    rcases List.eq_nil_or_concat after with rfl | ⟨rest, last, rfl⟩
    · obtain ⟨rfl, hlast⟩ := List.append_inj' h rfl
      exact .inr ⟨rfl, (List.cons.inj hlast).1, rfl⟩
    · rw [List.concat_eq_append, ← List.cons_append, ← List.append_assoc] at h
      obtain ⟨hbefore, hlast⟩ := List.append_inj' h rfl
      rw [List.concat_eq_append, (List.cons.inj hlast).1]
      exact .inl ⟨rest, hbefore, rfl⟩
  · rintro (⟨rest, rfl, rfl⟩ | ⟨rfl, rfl, rfl⟩)
    · simp
    · rfl

theorem exists_place_concat_iff {l : List α} {a : α} {p : List α → α → List α → Prop} :
    (∃ before x after, l ++ [a] = before ++ x :: after ∧ p before x after)
      ↔ (∃ before x after, l = before ++ x :: after ∧ p before x (after ++ [a])) ∨ p l a [] := by
  constructor
  · rintro ⟨before, x, after, hplace, hp⟩
    rcases concat_eq_append_cons_iff.1 hplace with ⟨rest, hl, rfl⟩ | ⟨rfl, rfl, rfl⟩
    · exact .inl ⟨before, x, rest, hl, hp⟩
    · exact .inr hp
  · rintro (⟨before, x, after, rfl, hp⟩ | hp)
    · exact ⟨before, x, after ++ [a], by simp, hp⟩
    · exact ⟨l, a, [], rfl, hp⟩

/-- What holds at every place of a list with one more element at its end. Here nothing is said of
what comes after a place. -/
theorem forall_place_concat_iff {l : List α} {a : α} {p : List α → α → Prop} :
    (∀ before x after, l ++ [a] = before ++ x :: after → p before x)
      ↔ (∀ before x after, l = before ++ x :: after → p before x) ∧ p l a := by
  constructor
  · intro h
    refine ⟨fun before x after hl => h before x (after ++ [a]) ?_, h l a [] rfl⟩
    simp [hl]
  · rintro ⟨hall, hlast⟩ before x after hplace
    rcases concat_eq_append_cons_iff.1 hplace with ⟨rest, hl, -⟩ | ⟨rfl, rfl, -⟩
    · exact hall before x rest hl
    · exact hlast

/-! ## Cuts -/

/-- The pieces between separators have no separators, and bring no new elements. -/
theorem mem_of_mem_splitOn [BEq α] [LawfulBEq α] {separator a : α} {l piece : List α}
    (hpiece : piece ∈ l.splitOn separator) (ha : a ∈ piece) : a ∈ l ∧ a ≠ separator := by
  induction l generalizing piece with
  | nil =>
    rw [List.splitOn_nil, List.mem_singleton] at hpiece
    rw [hpiece] at ha
    cases ha
  | cons b rest ih =>
    -- a separator opens a new first piece; anything else goes into the first piece of the rest
    rw [List.splitOn_cons_eq_if_modifyHead] at hpiece
    split at hpiece
    · rcases List.mem_cons.1 hpiece with rfl | hpiece
      · cases ha
      · exact (ih hpiece ha).imp_left (List.mem_cons_of_mem b)
    · rename_i hother
      cases hpieces : rest.splitOn separator with
      | nil => exact absurd hpieces (List.splitOn_ne_nil separator rest)
      | cons first others =>
        rw [hpieces] at hpiece ih
        rcases List.mem_cons.1 hpiece with rfl | hpiece
        · rcases List.mem_cons.1 ha with rfl | ha
          · exact ⟨List.mem_cons_self, fun heq => hother (beq_iff_eq.2 heq)⟩
          · exact (ih List.mem_cons_self ha).imp_left (List.mem_cons_of_mem b)
        · exact (ih (List.mem_cons_of_mem _ hpiece) ha).imp_left (List.mem_cons_of_mem b)

/-- What is cut off at the first element of a kind is the same whatever comes after one. -/
theorem takeWhile_append_cons {p : α → Bool} (l rest : List α) {a : α} (ha : p a = false) :
    (l ++ a :: rest).takeWhile p = l.takeWhile p := by
  induction l with
  | nil => exact List.takeWhile_cons_of_neg (Bool.eq_false_iff.1 ha)
  | cons b l ih => rw [List.cons_append, List.takeWhile_cons, List.takeWhile_cons, ih]

/-- A list is cut at the first occurrence of an element, or is not cut. -/
theorem exists_cut (a : α) (l : List α) :
    ∃ before rest, l = before ++ rest ∧ a ∉ before ∧ (rest = [] ∨ ∃ after, rest = a :: after) := by
  by_cases ha : a ∈ l
  · obtain ⟨before, after, hl, hbefore⟩ := List.eq_append_cons_of_mem ha
    exact ⟨before, a :: after, hl, hbefore, .inr ⟨after, rfl⟩⟩
  · exact ⟨l, [], (List.append_nil l).symm, ha, .inl rfl⟩

end Gatehouse
