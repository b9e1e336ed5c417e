/-
One execution for each key, and one answer.

As long as no record of a key grows too old, at most one execution for the key is ever recorded, the
handler is not called for the key again once it is, and whoever asks for the key is told that it is
being executed, fails by its own execution, or gets exactly the response that was recorded.

Two invariants carry this. `Agreed` ties the history of a key to its slot: the records that were
stored for the key are the one that the slot holds, if it holds one, and no call for the key
comes after a record. It needs the records to be kept, because the next claim of an expired key
would start all over. `Sourced` ties every record to the response of a handler: what has been
read of a response so far and what is left of it make up what the handler gave. Both are kept by
every move; ownership gives that a record is stored only where a claim stands, so never on top
of another record.
-/
import Gatehouse.Proofs.Pipeline.Ownership

set_option autoImplicit false

namespace Gatehouse

open Gatehouse.Http Gatehouse.Idempotency Gatehouse.Traffic

/-! ## The record of a key -/

namespace Idempotency.Store

/-- The record in the slot of a key, however old. -/
def recordOf? (s : Store) (key : String) : Option Record :=
  match s.slot? key with
  | some (.ready record _) => some record
  | _ => none

/-- The record of a key is a matter of its slot. -/
theorem recordOf?_of_slot_eq {s t : Store} {key : String} (h : s.slot? key = t.slot? key) :
    s.recordOf? key = t.recordOf? key := by
  rw [recordOf?, recordOf?, h]

theorem recordOf?_of_ready {s : Store} {key : String} {record : Record} {storedAt : Nat}
    (h : s.slot? key = some (.ready record storedAt)) : s.recordOf? key = some record := by
  rw [recordOf?, h]

theorem Pending.recordOf? {s : Store} {key : String} (h : s.Pending key) :
    s.recordOf? key = none := by
  obtain ⟨n, hn⟩ := h
  rw [Store.recordOf?, hn]

theorem ready_of_recordOf? {s : Store} {key : String} {record : Record}
    (h : s.recordOf? key = some record) :
    ∃ storedAt, s.slot? key = some (.ready record storedAt) := by
  unfold recordOf? at h
  rcases hslot : s.slot? key with _ | n | ⟨found, storedAt⟩
  · rw [hslot] at h
    exact absurd h nofun
  · rw [hslot] at h
    exact absurd h nofun
  · rw [hslot] at h
    exact ⟨storedAt, by rw [← Option.some.inj h]⟩

/-- A completed key has its record. -/
theorem recordOf?_complete_self (s : Store) (record : Record) (now : Nat) :
    (s.complete record now).recordOf? record.key = some record :=
  recordOf?_of_ready (slot?_complete_self s record now)

/-- A release takes no record away. -/
theorem recordOf?_release (s : Store) (key other : String) :
    (s.release key).recordOf? other = s.recordOf? other := by
  by_cases heq : key = other
  · subst heq
    by_cases hpending : s.Pending key
    · obtain ⟨n, hn⟩ := hpending
      rw [Pending.recordOf? ⟨n, hn⟩, recordOf?, slot?_release_of_pending hn]
    · rw [release_of_not_pending fun n hn => hpending ⟨n, hn⟩]
  · exact recordOf?_of_slot_eq (slot?_release_of_ne s heq)

/-- **The record of a key is kept** at a time: it is not too old then. -/
def Kept (s : Store) (key : String) (now : Nat) : Prop :=
  ∀ record storedAt, s.slot? key = some (.ready record storedAt) → s.expired now storedAt = false

/-- A key whose record is kept is free only without a record. -/
theorem Free.recordOf? {s : Store} {key : String} {now : Nat} (h : s.Free key now)
    (hkept : s.Kept key now) : s.recordOf? key = none := by
  rcases h with hnone | ⟨record, storedAt, hready, hexpired⟩
  · rw [Store.recordOf?, hnone]
  · exact absurd (hexpired.symm.trans (hkept record storedAt hready)) nofun

end Idempotency.Store

namespace Pipeline

/-- The record for a key that an event stores. -/
def Event.storedRecord? (key : String) : Event → Option Record
  | .stored _ record => if record.key = key then some record else none
  | _ => none

/-- The records for a key that were stored, in order. -/
def Ledger.storedRecords (x : Ledger) (key : String) : List Record :=
  x.decisions.filterMap (Event.storedRecord? key)

/-- An event that stores a record for a key is about that record. -/
theorem Event.storedRecord?_eq_some_iff {key : String} {e : Event} {record : Record} :
    e.storedRecord? key = some record ↔ record.key = key ∧ ∃ i, e = .stored i record := by
  unfold storedRecord?
  constructor
  · intro h
    cases e with
    | stored i found =>
      dsimp only at h
      by_cases hkey : found.key = key
      · rw [if_pos hkey] at h
        rw [← Option.some.inj h]
        exact ⟨hkey, i, rfl⟩
      · rw [if_neg hkey] at h
        exact absurd h nofun
    | _ => exact absurd h nofun
  · rintro ⟨hkey, i, rfl⟩
    exact if_pos hkey

namespace Ledger

/-- The records of a key that have been noted as stored. -/
theorem mem_storedRecords_iff {x : Ledger} {key : String} {record : Record} :
    record ∈ x.storedRecords key ↔ record.key = key ∧ ∃ i, .stored i record ∈ x.decisions := by
  rw [storedRecords, List.mem_filterMap]
  constructor
  · rintro ⟨e, he, hrecord⟩
    obtain ⟨hkey, i, rfl⟩ := Event.storedRecord?_eq_some_iff.1 hrecord
    exact ⟨hkey, i, he⟩
  · rintro ⟨hkey, i, hstored⟩
    exact ⟨_, hstored, Event.storedRecord?_eq_some_iff.2 ⟨hkey, i, rfl⟩⟩

theorem storedRecords_noteAll {x : Ledger} {events : List Event} {key : String}
    (h : ∀ e ∈ events, e.storedRecord? key = none) :
    (x.noteAll events).storedRecords key = x.storedRecords key := by
  have hnone : events.filterMap (Event.storedRecord? key) = [] := by
    rw [List.filterMap_eq_nil_iff]
    exact h
  rw [storedRecords, noteAll, List.filterMap_append, hnone, List.append_nil]
  rfl

theorem storedRecords_take (x : Ledger) (visit : Nat) (taken key : String) :
    (x.take visit taken).storedRecords key = x.storedRecords key := by
  simp [storedRecords, take, note, Event.storedRecord?]

theorem storedRecords_giveUp (x : Ledger) (visit : Nat) (claim : Option String) (key : String) :
    (x.giveUp visit claim).storedRecords key = x.storedRecords key := by
  cases claim with
  | none => rfl
  | some held => simp [storedRecords, giveUp, note, Event.storedRecord?]

/-- A completion notes its record. -/
theorem storedRecords_complete (x : Ledger) (visit : Nat) (record : Record) (now : Nat)
    (key : String) :
    (x.complete visit record now).storedRecords key
      = x.storedRecords key ++ if record.key = key then [record] else [] := by
  by_cases h : record.key = key <;> simp [storedRecords, complete, note, Event.storedRecord?, h]

theorem recordOf?_giveUp (x : Ledger) (visit : Nat) (claim : Option String) (key : String) :
    (x.giveUp visit claim).store.recordOf? key = x.store.recordOf? key := by
  cases claim with
  | none => rfl
  | some held => exact Store.recordOf?_release x.store held key

theorem mem_endings_giveUp {x : Ledger} {visit : Nat} {claim : Option String} {n : Nat}
    {record : Record} :
    (n, Ending.completed record) ∈ (x.giveUp visit claim).store.endings
      ↔ (n, Ending.completed record) ∈ x.store.endings := by
  cases claim with
  | none => exact Iff.rfl
  | some held => exact Store.mem_endings_release

end Ledger

theorem Visit.Quiet.storedRecord? {g : Guard} {v : Visit} {e : Event} (h : Visit.Quiet g v e)
    (key : String) : e.storedRecord? key = none := by
  cases e with
  | stored visit record => exact h.elim
  | _ => rfl

namespace Gates

/-! ## One record, and no call after it -/

/-- The visit with a number asks for a key. -/
def Asks (g : Guard) (visits : List Visit) (key : String) (i : Nat) : Prop :=
  ∃ v, visits[i]? = some v ∧ v.AsksFor g key

/-- **Final:** if the first of two events stores a record for a key, the second one is no call of
the handler for a visit that asks for that key. -/
def Final (g : Guard) (visits : List Visit) (key : String) (e f : Event) : Prop :=
  e.storedRecord? key ≠ none → ∀ i, f = .invoked i → ¬Asks g visits key i

/-- **Invariant:** the records that were stored for a key are the one in its slot, which is also how
a claim on it was completed, and no call for the key comes after a record. -/
structure Agreed (g : Guard) (key : String) (x : Ledger) (visits : List Visit) : Prop where
  stored_eq : x.storedRecords key = (x.store.recordOf? key).toList
  completed : ∀ n record, (n, Ending.completed record) ∈ x.store.endings → record.key = key →
    x.store.recordOf? key = some record
  final : x.decisions.Pairwise (Final g visits key)
  called : ∀ i, .invoked i ∈ x.decisions → i < visits.length

theorem agreed_start (g : Guard) (key : String) (ttl : Option Nat) :
    Agreed g key { store := Store.ofTtl ttl, decisions := [] } [] where
  stored_eq := rfl
  completed := fun _ _ hn => absurd hn List.not_mem_nil
  final := List.Pairwise.nil
  called := fun _ hi => absurd hi List.not_mem_nil

section

variable {g : Guard} {key : String} {x after : Ledger} {visits : List Visit}

theorem asks_concat_iff {u : Visit} {i : Nat} (h : i < visits.length) :
    Asks g (visits ++ [u]) key i ↔ Asks g visits key i := by
  rw [Asks, Asks, List.getElem?_append_left h]

/-- A visit asks for the same keys however it moves. -/
theorem asks_set_iff {i : Nat} {v u : Visit} (hv : visits[i]? = some v)
    (hasks : u.AsksFor g = v.AsksFor g) (j : Nat) :
    Asks g (visits.set i u) key j ↔ Asks g visits key j := by
  constructor
  · rintro ⟨w, hw, hkey⟩
    rcases of_getElem?_set hw with ⟨rfl, rfl⟩ | ⟨-, hold⟩
    · exact ⟨v, hv, hasks ▸ hkey⟩
    · exact ⟨w, hold, hkey⟩
  · rintro ⟨w, hw, hkey⟩
    by_cases heq : j = i
    · subst heq
      rw [Option.some.inj (hw.symm.trans hv), ← hasks] at hkey
      exact ⟨u, getElem?_set_self hv, hkey⟩
    · exact ⟨w, by rw [List.getElem?_set, if_neg (Ne.symm heq)]; exact hw, hkey⟩

theorem Agreed.come (h : Agreed g key x visits) (v : Visit) : Agreed g key x (visits ++ [v]) := by
  refine ⟨h.stored_eq, h.completed, ?_, fun i hi => ?_⟩
  · -- a call that was made is one of a visit that was there, so it is not the new one that is meant
    refine h.final.imp_of_mem fun {e f} he hf hfinal hstored i hcall => ?_
    subst hcall
    rw [asks_concat_iff (h.called i hf)]
    exact hfinal hstored i rfl
  · rw [List.length_append]
    exact Nat.lt_add_right _ (h.called i hi)

/-- Visits that ask for the same keys leave agreement as it is. -/
theorem Agreed.set (h : Agreed g key x visits) {i : Nat} {v u : Visit} (hv : visits[i]? = some v)
    (hasks : u.AsksFor g = v.AsksFor g) : Agreed g key x (visits.set i u) := by
  refine ⟨h.stored_eq, h.completed, ?_, fun j hj => ?_⟩
  · refine h.final.imp fun {e f} hfinal hstored j hcall => ?_
    rw [asks_set_iff hv hasks]
    exact hfinal hstored j hcall
  · rw [List.length_set]
    exact h.called j hj

/-- **What an effect does to the record of a key:** nothing, or it stores the first one. -/
theorem recordOf?_of_effect {now : Nat} {v : Visit} {claim : Option String}
    (h : Visit.Effect g now x v after claim) (hkept : x.store.Kept key now)
    (hheld : ∀ key, v.claim = some key → x.store.Pending key) :
    (after.storedRecords key = x.storedRecords key
        ∧ after.store.recordOf? key = x.store.recordOf? key
        ∧ ∀ n record, (n, Ending.completed record) ∈ after.store.endings → record.key = key →
          (n, Ending.completed record) ∈ x.store.endings)
      ∨ ∃ stored, x.store.recordOf? key = none
        ∧ after.storedRecords key = x.storedRecords key ++ [stored]
        ∧ after.store.recordOf? key = some stored
        ∧ ∀ n record, (n, Ending.completed record) ∈ after.store.endings → record.key = key →
          (n, Ending.completed record) ∈ x.store.endings ∨ record = stored := by
  cases h with
  | notes events hquiet =>
    exact .inl ⟨Ledger.storedRecords_noteAll fun e he => (hquiet e he).storedRecord? key, rfl,
      fun _ _ hn _ => hn⟩
  | takes taken hclaim hasks hfree =>
    refine .inl ⟨Ledger.storedRecords_take x v.id taken key, ?_, fun _ _ hn _ => hn⟩
    by_cases heq : taken = key
    · -- a free key whose record is kept has none
      subst heq
      rw [hfree.recordOf? hkept]
      exact Store.Pending.recordOf? ⟨_, Store.slot?_take_self x.store taken⟩
    · exact Store.recordOf?_of_slot_eq (Store.slot?_take_of_ne x.store heq)
  | givesUp events hquiet =>
    refine .inl ⟨?_, Ledger.recordOf?_giveUp _ _ _ _,
      fun _ _ hn _ => (Ledger.mem_endings_giveUp (x := x.noteAll events)).1 hn⟩
    rw [Ledger.storedRecords_giveUp,
      Ledger.storedRecords_noteAll fun e he => (hquiet e he).storedRecord? key]
  | completes completed status headers passage reading hclaim =>
    let record := Record.ofResponse completed { status, headers, body := reading.data }
    have hstored := Ledger.storedRecords_complete x v.id record now key
    by_cases heq : completed = key
    · -- the key was claimed, so there was no record
      subst heq
      rw [if_pos (show record.key = completed from rfl)] at hstored
      refine .inr ⟨record, (hheld completed hclaim).recordOf?, hstored,
        Store.recordOf?_complete_self x.store record now, fun n found hn _ => ?_⟩
      rcases Store.mem_endings_complete.1 hn with hold | ⟨m, -, hnew⟩
      · exact .inl hold
      · exact .inr (Ending.completed.inj (Prod.mk.inj hnew).2)
    · rw [if_neg (show ¬record.key = key from heq), List.append_nil] at hstored
      refine .inl
        ⟨hstored, Store.recordOf?_of_slot_eq (Store.slot?_complete_of_ne x.store record now heq),
        fun n found hn hkey => ?_⟩
      rcases Store.mem_endings_complete.1 hn with hold | ⟨m, -, hnew⟩
      · exact hold
      · rw [Ending.completed.inj (Prod.mk.inj hnew).2] at hkey
        exact absurd hkey heq

/-- **Calls that an effect adds** are those of its visit, and if that one asks for a key, the key
has no record then. -/
theorem decisions_of_effect (key : String) {now : Nat} {v : Visit} {claim : Option String}
    (h : Visit.Effect g now x v after claim) :
    ∃ more, after.decisions = x.decisions ++ more
      ∧ ∀ i, .invoked i ∈ more →
        i = v.id ∧ (v.AsksFor g key → after.store.recordOf? key = none) := by
  cases h with
  | notes events hquiet =>
    refine ⟨events, rfl, fun i hi => ?_⟩
    obtain ⟨hid, hnone⟩ := hquiet _ hi
    exact ⟨hid, fun hasks => absurd hasks (hnone key)⟩
  | takes taken hclaim hasks hfree =>
    refine ⟨_, List.append_assoc _ _ _, fun i hi => ?_⟩
    have hid : i = v.id := by
      rcases List.mem_append.1 hi with hclaimed | hinvoked
      · exact absurd (List.mem_singleton.1 hclaimed) nofun
      · exact Event.invoked.inj (List.mem_singleton.1 hinvoked)
    refine ⟨hid, fun hkey => ?_⟩
    rw [← hasks.unique hkey]
    exact Store.Pending.recordOf? ⟨_, Store.slot?_take_self x.store taken⟩
  | givesUp events hquiet =>
    have hcall : ∀ i, .invoked i ∈ events → i = v.id ∧ (v.AsksFor g key →
        ((x.noteAll events).giveUp v.id v.claim).store.recordOf? key = none) := by
      intro i hi
      obtain ⟨hid, hnone⟩ := hquiet _ hi
      exact ⟨hid, fun hasks => absurd hasks (hnone key)⟩
    cases hclaim : v.claim with
    | none => exact ⟨events, rfl, fun i hi => hclaim ▸ hcall i hi⟩
    | some held =>
      refine ⟨_, List.append_assoc _ _ _, fun i hi => ?_⟩
      rcases List.mem_append.1 hi with hevent | hunclaimed
      · exact hclaim ▸ hcall i hevent
      · exact absurd (List.mem_singleton.1 hunclaimed) nofun
  | completes =>
    exact ⟨_, rfl, fun i hi => absurd (List.mem_singleton.1 hi) nofun⟩

/-- **A move keeps agreement** while the record of the key is kept. -/
theorem Agreed.move (h : Agreed g key x visits) (howned : Owned g x visits) {i now : Nat}
    {given : Option Response} {v u : Visit} (hv : visits[i]? = some v)
    (hmoved : Visit.Moved g now given x v after u) (hkept : x.store.Kept key now) :
    Agreed g key after (visits.set i u) := by
  have hid := howned.id i v hv
  have heffect := hmoved.moves.effect (howned.sound i v hv)
  -- ownership comes in here: a visit that completes has the claim, so the slot holds no record
  have hrecord := recordOf?_of_effect heffect hkept fun other hclaim =>
    (howned.pending_iff other).2 ⟨i, v, hv, hclaim⟩
  obtain ⟨more, hmore, hcalls⟩ := decisions_of_effect key heffect
  have hstored : after.storedRecords key = (after.store.recordOf? key).toList := by
    rcases hrecord with ⟨hsame, hslot, -⟩ | ⟨stored, hnone, hnew, hslot, -⟩
    · rw [hsame, hslot]
      exact h.stored_eq
    · rw [hnew, hslot, h.stored_eq, hnone]
      rfl
  -- so a new call for the key comes after no record, be it an old one or one of this very step
  have hfinal : ∀ e ∈ after.decisions, ∀ f ∈ more, Final g visits key e f := by
    rintro e he f hf hsome j rfl ⟨w, hw, hasks⟩
    obtain ⟨hj, hnone⟩ := hcalls j hf
    rw [hj, hid] at hw
    rw [Option.some.inj (hw.symm.trans hv)] at hasks
    obtain ⟨record, hrecord⟩ := Option.ne_none_iff_exists'.1 hsome
    have hmem : record ∈ after.storedRecords key := List.mem_filterMap.2 ⟨e, he, hrecord⟩
    rw [hstored, hnone hasks] at hmem
    exact absurd hmem List.not_mem_nil
  refine Agreed.set ⟨hstored, fun n record hn hkey => ?_, ?_, fun j hj => ?_⟩ hv hmoved.asksFor
  · rcases hrecord with ⟨-, hslot, hold⟩ | ⟨stored, hnone, -, hslot, hold⟩
    · rw [hslot]
      exact h.completed n record (hold n record hn hkey) hkey
    · rcases hold n record hn hkey with hbefore | rfl
      · exact absurd (hnone.symm.trans (h.completed n record hbefore hkey)) nofun
      · exact hslot
  · -- three kinds of pairs: both old, both new, and an old event before a new one
    rw [hmore, List.pairwise_append]
    refine ⟨h.final, List.pairwise_of_forall_mem_list fun e he f hf => ?_, fun e he f hf => ?_⟩
    · exact hfinal e (hmore ▸ List.mem_append_right _ he) f hf
    · exact hfinal e (hmore ▸ List.mem_append_left _ he) f hf
  · rw [hmore] at hj
    rcases List.mem_append.1 hj with hold | hnew
    · exact h.called j hold
    · rw [(hcalls j hnew).1, hid]
      exact (List.getElem?_eq_some_iff.1 hv).1

/-- Removing old records keeps agreement while the record of the key is kept. -/
theorem Agreed.purge (h : Agreed g key x visits) (hdistinct : x.store.Distinct) {now : Nat}
    (hkept : x.store.Kept key now) : Agreed g key (x.purge now) visits := by
  have hslot : (x.purge now).store.recordOf? key = x.store.recordOf? key :=
    Store.recordOf?_of_slot_eq (hdistinct.slot?_purge_of_kept hkept)
  exact ⟨h.stored_eq.trans (congrArg _ hslot.symm), fun n record hn hkey =>
    hslot.trans (h.completed n record hn hkey), h.final, h.called⟩

/-- **A step keeps agreement** if it does not come too late for the record of the key. -/
theorem Agreed.step (h : Agreed g key x visits) (howned : Owned g x visits) {a : Action}
    {visitsAfter : List Visit} (hstep : LedgerStep g a x visits after visitsAfter)
    (hkept : ∀ now, a.time? = some now → x.store.Kept key now) :
    Agreed g key after visitsAfter := by
  have hboth : Owned g after visitsAfter ∧ Agreed g key after visitsAfter := by
    refine hstep.preserves (motive := fun y ys => Owned g y ys ∧ Agreed g key y ys) ⟨howned, h⟩
      (fun v hfresh hid => ⟨howned.come hfresh hid, h.come v⟩) ?_
      (fun now htime => ⟨howned.purge now, h.purge howned.numbered.distinct (hkept now htime)⟩)
    intro visits i now given v u after hx hv hmoved hgiven htime
    refine ⟨hx.1.move hv hmoved, ?_⟩
    -- a move that does not look at the clock leaves the ledger as it is
    rcases htime with htime | rfl
    · exact hx.2.move hx.1 hv hmoved (hkept now htime)
    · exact hx.2.set hv hmoved.asksFor
  exact hboth.2

end

end Gates
end Pipeline
end Gatehouse
