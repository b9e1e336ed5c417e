/-
Who owns a key.

A key is claimed in the store exactly while one visit holds the claim on it, and no two visits
hold one. The store knows nothing of visits, and visits release and complete by key, so this
is an invariant of both together: `Owned`. Besides, claims are numbered in the order in which
they were made (`Numbered`), and every handle and every ending is about the key that its
number was given out for.

All moves are judged by what they do to the set of claimed keys, in `Effect.pending_iff`: the key of
the visit goes if the visit loses its claim, the new claim of the visit comes, and nothing else
changes. The preservation of ownership is a consequence of this one line for every move alike.
-/
import Gatehouse.Proofs.Pipeline.Effects
import Gatehouse.Proofs.Pipeline.Moves

set_option autoImplicit false

namespace Gatehouse

open Gatehouse.Http Gatehouse.Idempotency Gatehouse.Traffic

/-! ## Claimed keys -/

namespace Idempotency.Store

/-- A key is claimed, and the claim has not ended. -/
def Pending (s : Store) (key : String) : Prop := ∃ n, s.slot? key = some (.pending n)

theorem Free.not_pending {s : Store} {key : String} {now : Nat} (h : s.Free key now) :
    ¬s.Pending key := by
  rintro ⟨n, hn⟩
  rcases h with hnone | ⟨record, storedAt, hready, -⟩
  · exact absurd (hn.symm.trans hnone) nofun
  · exact absurd (hn.symm.trans hready) nofun

/-- A key that is taken is claimed, and no other key is touched. -/
theorem pending_take_iff (s : Store) (key other : String) :
    (s.take key).Pending other ↔ s.Pending other ∨ key = other := by
  by_cases h : key = other
  · subst h
    exact ⟨fun _ => .inr rfl, fun _ => ⟨s.claims, slot?_take_self s key⟩⟩
  · simp only [Pending, slot?_take_of_ne s h, h, or_false]

/-- A release ends the claim on its key, and no other. -/
theorem pending_release_iff (s : Store) (key other : String) :
    (s.release key).Pending other ↔ s.Pending other ∧ key ≠ other := by
  by_cases h : key = other
  · subst h
    refine ⟨fun hafter => ?_, fun hboth => absurd rfl hboth.2⟩
    obtain ⟨n, hn⟩ := hafter
    -- a claim is taken away; without one the release does nothing, so there is none after it either
    by_cases hpending : ∃ m, s.slot? key = some (.pending m)
    · obtain ⟨m, hm⟩ := hpending
      exact absurd (hn.symm.trans (slot?_release_of_pending hm)) nofun
    · rw [release_of_not_pending fun m hm => hpending ⟨m, hm⟩] at hn
      exact absurd ⟨n, hn⟩ hpending
  · simp only [Pending, slot?_release_of_ne s h, ne_eq, h, not_false_eq_true, and_true]

/-- A completion ends the claim on its key, and no other. -/
theorem pending_complete_iff (s : Store) (record : Record) (now : Nat) (other : String) :
    (s.complete record now).Pending other ↔ s.Pending other ∧ record.key ≠ other := by
  by_cases h : record.key = other
  · subst h
    refine ⟨fun hafter => ?_, fun hboth => absurd rfl hboth.2⟩
    obtain ⟨n, hn⟩ := hafter
    exact absurd (hn.symm.trans (slot?_complete_self s record now)) nofun
  · simp only [Pending, slot?_complete_of_ne s record now h, ne_eq, h, not_false_eq_true, and_true]

end Idempotency.Store

namespace Pipeline

/-! ## Numbered claims -/

/-- The key that an event claims. -/
def Event.claimedKey? : Event → Option String
  | .claimed _ key => some key
  | _ => none

namespace Ledger

/-- The keys that were claimed, in order. -/
def claimedKeys (x : Ledger) : List String := x.decisions.filterMap Event.claimedKey?

/-- **Invariant:** claims are numbered in order, and a number stands for the key it
was given out for. -/
structure Numbered (x : Ledger) : Prop where
  distinct : x.store.Distinct
  claims : x.store.claims = x.claimedKeys.length
  pending : ∀ key n, x.store.slot? key = some (.pending n) → x.claimedKeys[n]? = some key
  completed : ∀ n record, (n, Ending.completed record) ∈ x.store.endings →
    x.claimedKeys[n]? = some record.key

/-- Only a claim adds a claimed key. -/
theorem claimedKeys_noteAll {x : Ledger} {events : List Event}
    (h : ∀ e ∈ events, e.claimedKey? = none) : (x.noteAll events).claimedKeys = x.claimedKeys := by
  have hnone : events.filterMap Event.claimedKey? = [] := by
    rw [List.filterMap_eq_nil_iff]
    exact h
  rw [claimedKeys, noteAll, List.filterMap_append, hnone, List.append_nil]
  rfl

/-- Taking a key notes the claim. -/
theorem claimedKeys_take (x : Ledger) (visit : Nat) (key : String) :
    (x.take visit key).claimedKeys = x.claimedKeys ++ [key] := by
  simp [claimedKeys, take, note, Event.claimedKey?]

theorem claimedKeys_giveUp (x : Ledger) (visit : Nat) (claim : Option String) :
    (x.giveUp visit claim).claimedKeys = x.claimedKeys := by
  cases claim with
  | none => rfl
  | some key => simp [claimedKeys, giveUp, note, Event.claimedKey?]

theorem claimedKeys_complete (x : Ledger) (visit : Nat) (record : Record) (now : Nat) :
    (x.complete visit record now).claimedKeys = x.claimedKeys := by
  simp [claimedKeys, complete, note, Event.claimedKey?]

/-- Events that claim nothing leave the claims as they are. -/
theorem Numbered.noteAll {x : Ledger} (h : x.Numbered) {events : List Event}
    (hevents : ∀ e ∈ events, e.claimedKey? = none) : (x.noteAll events).Numbered := by
  have hkeys := claimedKeys_noteAll (x := x) hevents
  exact ⟨h.distinct, hkeys ▸ h.claims, hkeys ▸ h.pending, hkeys ▸ h.completed⟩

/-- A number that stands for a key goes on standing for it. -/
theorem getElem?_append_of_some {α : Type} {l more : List α} {n : Nat} {a : α}
    (h : l[n]? = some a) :
    (l ++ more)[n]? = some a := by
  rw [List.getElem?_append_left (List.getElem?_eq_some_iff.1 h).1]
  exact h

theorem Numbered.take {x : Ledger} (h : x.Numbered) (visit : Nat) (key : String) :
    (x.take visit key).Numbered := by
  refine ⟨h.distinct.take key, ?_, fun other n hn => ?_, fun n record hn => ?_⟩
  · rw [claimedKeys_take, List.length_append]
    exact congrArg (· + 1) h.claims
  · rw [claimedKeys_take]
    by_cases heq : key = other
    · subst heq
      have hnew : n = x.claimedKeys.length := by
        have hslot := hn.symm.trans (Store.slot?_take_self x.store key)
        rw [← h.claims]
        exact Slot.pending.inj (Option.some.inj hslot)
      rw [hnew]
      simp
    · exact getElem?_append_of_some
        (h.pending other n ((Store.slot?_take_of_ne x.store heq).symm.trans hn))
  · rw [claimedKeys_take]
    exact getElem?_append_of_some (h.completed n record hn)

theorem Numbered.giveUp {x : Ledger} (h : x.Numbered) (visit : Nat) (claim : Option String) :
    (x.giveUp visit claim).Numbered := by
  cases claim with
  | none => exact h
  | some key =>
    have hkeys := claimedKeys_giveUp x visit (some key)
    refine ⟨h.distinct.release key, ?_, fun other n hn => ?_, fun n record hn => ?_⟩
    · exact (Store.claims_release x.store key).trans (hkeys ▸ h.claims)
    · rw [hkeys]
      -- a slot that is still claimed belongs to another key
      have hne : key ≠ other := ((Store.pending_release_iff x.store key other).1 ⟨n, hn⟩).2
      exact h.pending other n ((Store.slot?_release_of_ne x.store hne).symm.trans hn)
    · rw [hkeys]
      exact h.completed n record (Store.mem_endings_release.1 hn)

theorem Numbered.complete {x : Ledger} (h : x.Numbered) (visit : Nat) (record : Record)
    (now : Nat) :
    (x.complete visit record now).Numbered := by
  have hkeys := claimedKeys_complete x visit record now
  refine ⟨h.distinct.complete record now, ?_, fun other n hn => ?_, fun n found hn => ?_⟩
  · exact (Store.claims_complete x.store record now).trans (hkeys ▸ h.claims)
  · rw [hkeys]
    have hne : record.key ≠ other :=
      ((Store.pending_complete_iff x.store record now other).1 ⟨n, hn⟩).2
    exact h.pending other n ((Store.slot?_complete_of_ne x.store record now hne).symm.trans hn)
  · rw [hkeys]
    rcases Store.mem_endings_complete.1 hn with hold | ⟨m, hm, heq⟩
    · exact h.completed n found hold
    · cases heq
      exact h.pending _ _ hm

theorem Numbered.purge {x : Ledger} (h : x.Numbered) (now : Nat) : (x.purge now).Numbered :=
  ⟨h.distinct.purge now, h.claims,
    fun key n hn => h.pending key n ((h.distinct.pending_purge_iff now).1 hn), h.completed⟩

end Ledger

/-! ## What a move does to the claimed keys -/

namespace Visit

theorem Quiet.claimedKey? {g : Guard} {v : Visit} {e : Event} (h : Quiet g v e) :
    e.claimedKey? = none := by
  cases e with
  | claimed visit key => exact h.elim
  | _ => rfl

section

variable {g : Guard} {now : Nat} {x after : Ledger} {v : Visit} {claim : Option String}

/-- **Every effect** keeps the numbers of claims as they are noted. -/
theorem Effect.numbered (h : Effect g now x v after claim) (hx : x.Numbered) : after.Numbered := by
  cases h with
  | notes events hquiet => exact hx.noteAll fun e he => (hquiet e he).claimedKey?
  | takes key => exact hx.take v.id key
  | givesUp events hquiet => exact (hx.noteAll fun e he => (hquiet e he).claimedKey?).giveUp _ _
  | completes => exact hx.complete _ _ now

theorem Effect.ttl (h : Effect g now x v after claim) : after.store.ttl = x.store.ttl := by
  cases h with
  | notes => rfl
  | takes => rfl
  | givesUp events =>
    cases v.claim with
    | none => rfl
    | some held => exact Store.ttl_release x.store held
  | completes => exact Store.ttl_complete x.store _ now

/-- The claims that were made stay made. -/
theorem Effect.claimedKeys_grow (h : Effect g now x v after claim) :
    ∃ more, after.claimedKeys = x.claimedKeys ++ more := by
  cases h with
  | notes events hquiet =>
    exact ⟨[],
      by rw [Ledger.claimedKeys_noteAll fun e he => (hquiet e he).claimedKey?, List.append_nil]⟩
  | takes key => exact ⟨[key], Ledger.claimedKeys_take x v.id key⟩
  | givesUp events hquiet =>
    refine ⟨[], ?_⟩
    rw [Ledger.claimedKeys_giveUp, Ledger.claimedKeys_noteAll fun e he => (hquiet e he).claimedKey?,
      List.append_nil]
  | completes => exact ⟨[], by rw [Ledger.claimedKeys_complete, List.append_nil]⟩

/-- **What a move does to the claimed keys:** the claim that the visit had goes, the one that it has
comes, and the rest is as it was. -/
theorem Effect.pending_iff (h : Effect g now x v after claim)
    (hheld : ∀ key, v.claim = some key → x.store.Pending key) (key : String) :
    after.store.Pending key ↔ (x.store.Pending key ∧ v.claim ≠ some key) ∨ claim = some key := by
  cases h with
  | notes events hquiet =>
    change x.store.Pending key ↔ _
    by_cases hclaim : v.claim = some key
    · exact ⟨fun _ => .inr hclaim, fun _ => hheld key hclaim⟩
    · simp only [ne_eq, hclaim, not_false_eq_true, and_true, or_false]
  | takes taken hclaim hasks hfree =>
    change (x.store.take taken).Pending key ↔ _
    rw [Store.pending_take_iff, hclaim]
    simp only [ne_eq, reduceCtorEq, not_false_eq_true, and_true, Option.some.injEq]
  | givesUp events hquiet =>
    cases hclaim : v.claim with
    | none =>
      change x.store.Pending key ↔ _
      simp
    | some held =>
      change (x.store.release held).Pending key ↔ _
      rw [Store.pending_release_iff]
      simp only [ne_eq, Option.some.injEq, reduceCtorEq, or_false]
  | completes completed status headers passage reading hclaim =>
    change (x.store.complete _ now).Pending key ↔ _
    rw [Store.pending_complete_iff, hclaim]
    simp only [Record.ofResponse, ne_eq, Option.some.injEq, reduceCtorEq, or_false]

/-- A claim that a visit has after a move it had before, or nobody had. -/
theorem Effect.claim_new (h : Effect g now x v after claim) {key : String}
    (hclaim : claim = some key) :
    v.claim = some key ∨ ¬x.store.Pending key := by
  cases h with
  | notes => exact .inl hclaim
  | takes taken hnone hasks hfree =>
    rw [Option.some.inj hclaim] at hfree
    exact .inr hfree.not_pending
  | givesUp => exact absurd hclaim nofun
  | completes => exact absurd hclaim nofun

end

end Visit

/-! ## Ownership -/

namespace Gates

/-- **Invariant:** visits stand at their numbers and where they can, handles are for the keys that
are waited for, and a key is claimed exactly while one visit has the claim on it. -/
structure Owned (g : Guard) (x : Ledger) (visits : List Visit) : Prop where
  numbered : x.Numbered
  id : ∀ (i : Nat) (v : Visit), visits[i]? = some v → v.id = i
  sound : ∀ (i : Nat) (v : Visit), visits[i]? = some v → v.Sound g
  awaited : ∀ (i : Nat) (v : Visit) (key : String) (handle : InFlight), visits[i]? = some v →
    v.place = .waiting key handle → x.claimedKeys[handle.claim]? = some key
  pending_iff : ∀ key, x.store.Pending key
    ↔ ∃ (i : Nat) (v : Visit), visits[i]? = some v ∧ v.claim = some key
  alone : ∀ (i j : Nat) (v u : Visit) (key : String), visits[i]? = some v → visits[j]? = some u →
    v.claim = some key → u.claim = some key → i = j

theorem of_getElem?_set {visits : List Visit} {i j : Nat} {u w : Visit}
    (h : (visits.set i u)[j]? = some w) : (j = i ∧ w = u) ∨ (j ≠ i ∧ visits[j]? = some w) := by
  rw [List.getElem?_set] at h
  by_cases heq : i = j
  · rw [if_pos heq] at h
    by_cases hlt : i < visits.length
    · rw [if_pos hlt] at h
      exact .inl ⟨heq.symm, (Option.some.inj h).symm⟩
    · rw [if_neg hlt] at h
      exact absurd h nofun
  · rw [if_neg heq] at h
    exact .inr ⟨Ne.symm heq, h⟩

theorem getElem?_set_self {visits : List Visit} {i : Nat} {v u : Visit} (h : visits[i]? = some v) :
    (visits.set i u)[i]? = some u := by
  rw [List.getElem?_set, if_pos rfl, if_pos (List.getElem?_eq_some_iff.1 h).1]

theorem of_getElem?_concat {visits : List Visit} {j : Nat} {u w : Visit}
    (h : (visits ++ [u])[j]? = some w) : (j = visits.length ∧ w = u) ∨ visits[j]? = some w := by
  rw [List.getElem?_append] at h
  by_cases hlt : j < visits.length
  · rw [if_pos hlt] at h
    exact .inr h
  · rw [if_neg hlt, List.getElem?_singleton] at h
    by_cases hzero : j - visits.length = 0
    · rw [if_pos hzero] at h
      exact .inl ⟨by omega, (Option.some.inj h).symm⟩
    · rw [if_neg hzero] at h
      exact absurd h nofun

/-- **What a step keeps.** What is kept when a fresh visit comes, when a visit moves and when old
records are removed is kept by every step: an arrival is a fresh visit that comes and then moves. -/
theorem LedgerStep.preserves {g : Guard} {a : Action} {x after : Ledger}
    {visits visitsAfter : List Visit} {motive : Ledger → List Visit → Prop}
    (h : LedgerStep g a x visits after visitsAfter) (hx : motive x visits)
    (hcome : ∀ v, v.Fresh → v.id = visits.length → motive x (visits ++ [v]))
    (hmove : ∀ there i now given v u after, motive x there → there[i]? = some v →
      Visit.Moved g now given x v after u →
      (∀ response, given = some response → a = .reply i (.ok response) now ∧ there = visits) →
      (a.time? = some now ∨ after = x) → motive after (there.set i u))
    (hpurge : ∀ now, a.time? = some now → motive (x.purge now) visits) :
    motive after visitsAfter := by
  cases h with
  | idle => exact hx
  | visit i now given v u after hv hmoved hgiven htime =>
    exact hmove visits i now given v u after hx hv hmoved (fun r hr => ⟨hgiven r hr, rfl⟩) htime
  | arrive now v u after hfresh hid hmoved htime =>
    have hlast : (visits ++ [v])[visits.length]? = some v := by simp
    have hset : (visits ++ [v]).set visits.length u = visits ++ [u] := by simp
    rw [← hset]
    exact hmove (visits ++ [v]) visits.length now none v u after (hcome v hfresh hid)
      hlast hmoved nofun
      (.inl htime)
  | purge now htime => exact hpurge now htime

/-- Before the first visit there is none. -/
theorem not_getElem?_nil {i : Nat} {v : Visit} (h : ([] : List Visit)[i]? = some v) : False :=
  nomatch List.getElem?_nil.symm.trans h

theorem owned_start (g : Guard) (ttl : Option Nat) :
    Owned g { store := Store.ofTtl ttl, decisions := [] } [] where
  numbered :=
    { distinct := Store.distinct_ofTtl ttl
      claims := rfl
      pending := fun _ _ hn => absurd hn nofun
      completed := fun _ _ hn => absurd hn List.not_mem_nil }
  id := fun _ _ hv => (not_getElem?_nil hv).elim
  sound := fun _ _ hv => (not_getElem?_nil hv).elim
  awaited := fun _ _ _ _ hv => (not_getElem?_nil hv).elim
  pending_iff := fun _ =>
    ⟨fun ⟨_, hn⟩ => absurd hn nofun, fun ⟨_, _, hv, _⟩ => (not_getElem?_nil hv).elim⟩
  alone := fun _ _ _ _ _ hv => (not_getElem?_nil hv).elim

variable {g : Guard} {x : Ledger} {visits : List Visit}

/-- A visit that comes owns nothing. -/
theorem Owned.come (h : Owned g x visits) {v : Visit} (hfresh : v.Fresh)
    (hid : v.id = visits.length) :
    Owned g x (visits ++ [v]) := by
  -- the new visit stands nowhere and has no claim, so each clause is about the visits that
  -- were there
  refine ⟨h.numbered, fun i u hu => ?_, fun i u hu => ?_, fun i u key handle hu hplace => ?_,
    fun key => ?_, fun i j u w key hu hw hclaim hother => ?_⟩
  · rcases of_getElem?_concat hu with ⟨rfl, rfl⟩ | hold
    · exact hid
    · exact h.id i u hold
  · rcases of_getElem?_concat hu with ⟨rfl, rfl⟩ | hold
    · exact hfresh.sound g
    · exact h.sound i u hold
  · rcases of_getElem?_concat hu with ⟨rfl, rfl⟩ | hold
    · exact absurd (hfresh.place.symm.trans hplace) nofun
    · exact h.awaited i u key handle hold hplace
  · rw [h.pending_iff key]
    constructor
    · rintro ⟨i, u, hu, hclaim⟩
      exact ⟨i, u, Ledger.getElem?_append_of_some hu, hclaim⟩
    · rintro ⟨i, u, hu, hclaim⟩
      rcases of_getElem?_concat hu with ⟨rfl, rfl⟩ | hold
      · exact absurd (hfresh.claim.symm.trans hclaim) nofun
      · exact ⟨i, u, hold, hclaim⟩
  · rcases of_getElem?_concat hu with ⟨rfl, rfl⟩ | holdu
    · exact absurd (hfresh.claim.symm.trans hclaim) nofun
    · rcases of_getElem?_concat hw with ⟨rfl, rfl⟩ | holdw
      · exact absurd (hfresh.claim.symm.trans hother) nofun
      · exact h.alone i j u w key holdu holdw hclaim hother

/-- A visit that moves to waiting has a handle for its key. -/
theorem awaited_of_moves {now : Nat} {given : Option Response} {v : Visit} {after : Ledger}
    {claim : Option String} {place : Place} (h : Visit.Moves g now given x v after claim place)
    (hx : x.Numbered) {key : String} {handle : InFlight} (hplace : place = .waiting key handle)
    (hold : v.place = .waiting key handle → x.claimedKeys[handle.claim]? = some key) :
    x.claimedKeys[handle.claim]? = some key := by
  cases h with
  | stays => exact hold hplace
  | waits other n hwants hslot =>
    cases hplace
    exact hx.pending _ n hslot
  | _ => exact absurd hplace nofun

/-- **A move keeps ownership.** -/
theorem Owned.move (h : Owned g x visits) {i now : Nat} {given : Option Response} {v u : Visit}
    {after : Ledger} (hv : visits[i]? = some v) (hmoved : Visit.Moved g now given x v after u) :
    Owned g after (visits.set i u) := by
  have hsound := h.sound i v hv
  have heffect := hmoved.moves.effect hsound
  have hheld : ∀ key, v.claim = some key → x.store.Pending key := fun key hclaim =>
    (h.pending_iff key).2 ⟨i, v, hv, hclaim⟩
  refine ⟨heffect.numbered h.numbered, fun j w hw => ?_, fun j w hw => ?_,
    fun j w key handle hw hplace => ?_, fun key => ?_, fun j k w z key hw hz hclaim hother => ?_⟩
  · rcases of_getElem?_set hw with ⟨rfl, rfl⟩ | ⟨-, hold⟩
    · exact hmoved.id.trans (h.id j v hv)
    · exact h.id j w hold
  · rcases of_getElem?_set hw with ⟨rfl, rfl⟩ | ⟨-, hold⟩
    · exact hmoved.sound hsound
    · exact h.sound j w hold
  · -- claims are only ever added, so a number goes on standing for its key
    obtain ⟨more, hmore⟩ := heffect.claimedKeys_grow
    rw [hmore]
    refine Ledger.getElem?_append_of_some ?_
    rcases of_getElem?_set hw with ⟨rfl, rfl⟩ | ⟨-, hold⟩
    · exact awaited_of_moves hmoved.moves h.numbered hplace (h.awaited j v key handle hv)
    · exact h.awaited j w key handle hold hplace
  · rw [heffect.pending_iff hheld key, h.pending_iff key]
    constructor
    · rintro (⟨⟨j, w, hw, hclaim⟩, hlost⟩ | hclaim)
      · -- a claim that stays is one of somebody else
        have hne : i ≠ j := by
          rintro rfl
          exact hlost (Option.some.inj (hv.symm.trans hw) ▸ hclaim)
        exact ⟨j, w, by rw [List.getElem?_set, if_neg hne]; exact hw, hclaim⟩
      · exact ⟨i, u, getElem?_set_self hv, hclaim⟩
    · rintro ⟨j, w, hw, hclaim⟩
      rcases of_getElem?_set hw with ⟨rfl, rfl⟩ | ⟨hne, hold⟩
      · exact .inr hclaim
      · exact .inl ⟨⟨j, w, hold, hclaim⟩,
          fun hmine => hne (h.alone j i w v key hold hv hclaim hmine)⟩
  · -- a claim that the visit has now it had before, when nobody else had it, or nobody had
    -- it at all
    have hothers : ∀ j w, j ≠ i → visits[j]? = some w → w.claim = some key →
        u.claim = some key → False := by
      intro j w hne hold hwclaim huclaim
      rcases heffect.claim_new huclaim with hmine | hfree
      · exact hne (h.alone j i w v key hold hv hwclaim hmine)
      · exact hfree ((h.pending_iff key).2 ⟨j, w, hold, hwclaim⟩)
    rcases of_getElem?_set hw with ⟨rfl, rfl⟩ | ⟨hj, holdw⟩
    · rcases of_getElem?_set hz with ⟨rfl, rfl⟩ | ⟨hk, holdz⟩
      · rfl
      · exact (hothers k z hk holdz hother hclaim).elim
    · rcases of_getElem?_set hz with ⟨rfl, rfl⟩ | ⟨hk, holdz⟩
      · exact (hothers j w hj holdw hclaim hother).elim
      · exact h.alone j k w z key holdw holdz hclaim hother

/-- Removing old records keeps ownership: a claim is never old. -/
theorem Owned.purge (h : Owned g x visits) (now : Nat) : Owned g (x.purge now) visits := by
  refine ⟨h.numbered.purge now, h.id, h.sound, h.awaited, fun key => ?_, h.alone⟩
  rw [← h.pending_iff key]
  exact exists_congr fun n => h.numbered.distinct.pending_purge_iff now

/-- **A step keeps ownership.** -/
theorem Owned.step {a : Action} {after : Ledger} {visitsAfter : List Visit} (h : Owned g x visits)
    (hstep : LedgerStep g a x visits after visitsAfter) : Owned g after visitsAfter :=
  hstep.preserves h (fun _ hfresh hid => h.come hfresh hid)
    (fun _ _ _ _ _ _ _ hx hv hmoved _ _ => hx.move hv hmoved) (fun now _ => h.purge now)

/-- **On every run of the gates** each key is claimed exactly while one visit has the claim on
it. -/
theorem owned_run (g : Guard) (config : Breaker.BreakerConfig) (ttlMs : Option Nat)
    (actions : List Action) :
    Owned g ((start (World.start config ttlMs)).run g actions).world.ledger
      ((start (World.start config ttlMs)).run g actions).visits := by
  induction actions using List.reverseRecOn with
  | nil => exact owned_start g ttlMs
  | append_singleton actions a ih =>
    rw [run_concat]
    exact ih.step (step_ledger g _ a)

end Gates
end Pipeline
end Gatehouse
