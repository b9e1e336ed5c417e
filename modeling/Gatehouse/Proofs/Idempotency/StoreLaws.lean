/-
What the operations of the store do to slots and claims.

Everything that is said about the store on runs of the gates is said through three things: the slot
of a key, the endings of claims and the number of claims. This file has one lemma for each operation
and each of them. Only the removal of old records needs an invariant, because a table that holds a
key twice would show the second entry when the first one goes: `Distinct`.
-/
import Gatehouse.Idempotency.Store
import Gatehouse.Proofs.Tables

set_option autoImplicit false

namespace Gatehouse.Idempotency.Store

/-! ## Taking a key -/

/-- A key that is taken is claimed under the next number. -/
@[simp] theorem slot?_take_self (s : Store) (key : String) :
    (s.take key).slot? key = some (.pending s.claims) :=
  Table.lookup_put_self key _ s.slots

/-- Taking a key changes the slot of no other. -/
theorem slot?_take_of_ne (s : Store) {key other : String} (h : key ≠ other) :
    (s.take key).slot? other = s.slot? other :=
  Table.lookup_put_of_ne h _ s.slots

/-- **A key is free** for a claim at a time: it has nothing, or a record that is too old. -/
def Free (s : Store) (key : String) (now : Nat) : Prop :=
  s.slot? key = none
    ∨ ∃ record storedAt, s.slot? key = some (.ready record storedAt) ∧ s.expired now storedAt = true

/-- **What a claim attempt finds and leaves.** -/
theorem claim_cases (s : Store) (key : String) (now : Nat) :
    (s.claim key now = (.acquired, s.take key) ∧ s.Free key now)
      ∨ (∃ n, s.claim key now = (.pending ⟨n⟩, s) ∧ s.slot? key = some (.pending n))
      ∨ ∃ record storedAt, s.claim key now = (.replay record, s)
        ∧ s.slot? key = some (.ready record storedAt) ∧ s.expired now storedAt = false := by
  unfold claim Free
  -- the slot decides: empty, a claim, or a record that may be too old
  rcases hslot : s.slot? key with _ | n | ⟨record, storedAt⟩
  · exact .inl ⟨rfl, .inl rfl⟩
  · exact .inr (.inl ⟨n, rfl, rfl⟩)
  · by_cases hexpired : s.expired now storedAt = true
    · exact .inl ⟨by simp [hexpired], .inr ⟨record, storedAt, rfl, hexpired⟩⟩
    · exact .inr (.inr ⟨record, storedAt, by simp [hexpired], rfl, by simpa using hexpired⟩)

/-! ## Completing and releasing -/

/-- The end of a claim is noted with the endings, and nothing else changes. -/
theorem endClaim_eq (s : Store) (key : String) (ending : Ending) :
    s.endClaim key ending = { s with endings := (s.endClaim key ending).endings } := by
  unfold endClaim
  rcases s.slot? key with _ | _ | _ <;> rfl

@[simp] theorem slots_endClaim (s : Store) (key : String) (ending : Ending) :
    (s.endClaim key ending).slots = s.slots := by
  rw [endClaim_eq]

@[simp] theorem slot?_endClaim (s : Store) (key other : String) (ending : Ending) :
    (s.endClaim key ending).slot? other = s.slot? other :=
  congrArg (List.lookup other) (slots_endClaim s key ending)

@[simp] theorem claims_endClaim (s : Store) (key : String) (ending : Ending) :
    (s.endClaim key ending).claims = s.claims := by
  rw [endClaim_eq]

@[simp] theorem ttl_endClaim (s : Store) (key : String) (ending : Ending) :
    (s.endClaim key ending).ttl = s.ttl := by
  rw [endClaim_eq]

/-- Where there is no claim, none ends. -/
theorem endClaim_of_not_pending {s : Store} {key : String}
    (h : ∀ n, s.slot? key ≠ some (.pending n)) (ending : Ending) : s.endClaim key ending = s := by
  unfold endClaim
  rcases hslot : s.slot? key with _ | n | ⟨record, storedAt⟩
  · rfl
  · exact absurd hslot (h n)
  · rfl

/-- A claim ends only if there is one. -/
theorem mem_endings_endClaim {s : Store} {key : String} {ending : Ending} {e : Nat × Ending} :
    e ∈ (s.endClaim key ending).endings
      ↔ e ∈ s.endings ∨ ∃ n, s.slot? key = some (.pending n) ∧ e = (n, ending) := by
  unfold endClaim
  rcases hslot : s.slot? key with _ | n | ⟨record, storedAt⟩
  · simp
  · simp only [List.mem_cons]
    constructor
    · rintro (rfl | hold)
      · exact .inr ⟨n, rfl, rfl⟩
      · exact .inl hold
    · rintro (hold | ⟨m, hm, rfl⟩)
      · exact .inr hold
      · cases hm
        exact .inl rfl
  · simp

/-- A completed key holds the record, stored now. -/
@[simp] theorem slot?_complete_self (s : Store) (record : Record) (now : Nat) :
    (s.complete record now).slot? record.key = some (.ready record now) :=
  Table.lookup_put_self record.key _ _

/-- Completing a key changes the slot of no other. -/
theorem slot?_complete_of_ne (s : Store) (record : Record) (now : Nat) {other : String}
    (h : record.key ≠ other) : (s.complete record now).slot? other = s.slot? other :=
  (Table.lookup_put_of_ne h _ _).trans (slot?_endClaim s record.key other _)

@[simp] theorem claims_complete (s : Store) (record : Record) (now : Nat) :
    (s.complete record now).claims = s.claims :=
  claims_endClaim s record.key _

theorem ttl_complete (s : Store) (record : Record) (now : Nat) :
    (s.complete record now).ttl = s.ttl :=
  ttl_endClaim s record.key _

/-- The claim on a completed key, if there is one, ends with the record. -/
theorem mem_endings_complete {s : Store} {record : Record} {now : Nat} {e : Nat × Ending} :
    e ∈ (s.complete record now).endings
      ↔ e ∈ s.endings ∨ ∃ n, s.slot? record.key = some (.pending n) ∧ e = (n, .completed record) :=
  mem_endings_endClaim

/-- A release changes nothing unless the key is claimed. -/
theorem release_of_not_pending {s : Store} {key : String}
    (h : ∀ n, s.slot? key ≠ some (.pending n)) :
    s.release key = s := by
  unfold release
  rcases hslot : s.slot? key with _ | n | ⟨record, storedAt⟩
  · rfl
  · exact absurd hslot (h n)
  · rfl

/-- A release of a claimed key ends the claim and empties the slot. -/
theorem release_of_pending {s : Store} {key : String} {n : Nat}
    (h : s.slot? key = some (.pending n)) :
    s.release key
      = { s with endings := (n, .released) :: s.endings, slots := Table.erase key s.slots } := by
  simp [release, endClaim, h]

theorem slot?_release_of_pending {s : Store} {key : String} {n : Nat}
    (h : s.slot? key = some (.pending n)) : (s.release key).slot? key = none := by
  rw [release_of_pending h]
  exact Table.lookup_erase_self key s.slots

/-- A release changes the slot of no other key. -/
theorem slot?_release_of_ne (s : Store) {key other : String} (h : key ≠ other) :
    (s.release key).slot? other = s.slot? other := by
  unfold release
  rcases s.slot? key with _ | _ | _
  · rfl
  · exact (Table.lookup_erase_of_ne h _).trans (slot?_endClaim s key other .released)
  · rfl

@[simp] theorem claims_release (s : Store) (key : String) : (s.release key).claims = s.claims := by
  unfold release
  rcases s.slot? key with _ | _ | _
  · rfl
  · exact claims_endClaim s key .released
  · rfl

theorem ttl_release (s : Store) (key : String) : (s.release key).ttl = s.ttl := by
  unfold release
  rcases s.slot? key with _ | _ | _
  · rfl
  · exact ttl_endClaim s key .released
  · rfl

/-- A release leaves the records. -/
theorem ready_release_iff {s : Store} {key other : String} {record : Record} {storedAt : Nat} :
    (s.release key).slot? other = some (.ready record storedAt)
      ↔ s.slot? other = some (.ready record storedAt) := by
  by_cases hpending : ∃ n, s.slot? key = some (.pending n)
  · obtain ⟨n, hn⟩ := hpending
    by_cases heq : key = other
    · subst heq
      simp [slot?_release_of_pending hn, hn]
    · rw [slot?_release_of_ne s heq]
  · rw [release_of_not_pending fun n hn => hpending ⟨n, hn⟩]

/-- A release completes nothing. -/
theorem mem_endings_release {s : Store} {key : String} {n : Nat} {record : Record} :
    (n, Ending.completed record) ∈ (s.release key).endings
      ↔ (n, Ending.completed record) ∈ s.endings := by
  by_cases h : ∃ m, s.slot? key = some (.pending m)
  · obtain ⟨m, hm⟩ := h
    simp [release_of_pending hm]
  · rw [release_of_not_pending fun m hm => h ⟨m, hm⟩]

/-! ## Distinct keys, and the removal of old records -/

/-- **Invariant:** no key has two slots. -/
def Distinct (s : Store) : Prop := s.slots.keys.Nodup

theorem distinct_ofTtl (ttl : Option Nat) : (ofTtl ttl).Distinct := List.nodup_nil

/-- Every operation keeps the keys distinct. -/
theorem Distinct.take {s : Store} (h : s.Distinct) (key : String) : (s.take key).Distinct :=
  Table.keys_put_nodup h

theorem Distinct.complete {s : Store} (h : s.Distinct) (record : Record) (now : Nat) :
    (s.complete record now).Distinct := by
  refine Table.keys_put_nodup ?_
  rw [slots_endClaim]
  exact h

theorem Distinct.release {s : Store} (h : s.Distinct) (key : String) :
    (s.release key).Distinct := by
  unfold Store.release
  rcases s.slot? key with _ | _ | _
  · exact h
  · refine Table.keys_filter_nodup _ ?_
    rw [slots_endClaim]
    exact h
  · exact h

theorem Distinct.purge {s : Store} (h : s.Distinct) (now : Nat) : (s.purge now).2.Distinct :=
  Table.keys_filter_nodup _ h

/-- Removing old records takes out the slots that are stale and no others. -/
theorem Distinct.slot?_purge {s : Store} (h : s.Distinct) (now : Nat) (key : String) :
    (s.purge now).2.slot? key = (s.slot? key).filter fun slot => !s.stale now slot :=
  Table.lookup_filter _ h key

/-- A claim is never removed as old. -/
theorem Distinct.pending_purge_iff {s : Store} (h : s.Distinct) (now : Nat) {key : String}
    {n : Nat} :
    (s.purge now).2.slot? key = some (.pending n) ↔ s.slot? key = some (.pending n) := by
  rw [h.slot?_purge now key]
  rcases s.slot? key with _ | m | ⟨record, storedAt⟩
  · simp
  · simp [Option.filter, stale]
  · by_cases hexpired : s.expired now storedAt = true <;> simp [Option.filter, stale, hexpired]

/-- A record that is not too old is not removed. -/
theorem Distinct.slot?_purge_of_kept {s : Store} (h : s.Distinct) {now : Nat} {key : String}
    (hkept : ∀ record storedAt, s.slot? key = some (.ready record storedAt) →
      s.expired now storedAt = false) : (s.purge now).2.slot? key = s.slot? key := by
  rw [h.slot?_purge now key]
  rcases hslot : s.slot? key with _ | m | ⟨record, storedAt⟩
  · rfl
  · rfl
  · simp [Option.filter, stale, hkept record storedAt hslot]

/-- The ending that a handle finds has been noted. -/
theorem mem_endings_of_ending? {s : Store} {handle : InFlight} {ending : Ending}
    (h : s.ending? handle = some ending) : (handle.claim, ending) ∈ s.endings :=
  Table.mem_of_lookup h

end Gatehouse.Idempotency.Store
