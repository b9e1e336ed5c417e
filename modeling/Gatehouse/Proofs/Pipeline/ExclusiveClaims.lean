/-
Claims are exclusive, and they do not outlive the visits that hold them.

`Owned` says of one state that a key is claimed exactly while one visit has the claim on it. What is
added here is what this means for the course of a run. A visit has a claim exactly while it executes
for the key, that is, from the call of the handler until its response is stored or given up; so two
executions for one key never overlap. A claim ends by a step of the visit that holds it and by no
other step: releases and completions go by key, and what makes them harmless to others is that
nobody else holds a claim on that key. And once no visit is under way any more, no key is claimed.
-/
import Gatehouse.Proofs.Pipeline.ExactlyOnce

set_option autoImplicit false

namespace Gatehouse.Pipeline

open Gatehouse.Http Gatehouse.Idempotency Gatehouse.Traffic

/-- The visit whose step an action is, unless a new one comes or none is concerned. -/
def Action.visit? : Action → Option Nat
  | .arrive _ _ _ => none
  | .resume i _ _ => some i
  | .readRequest i => some i
  | .reply i _ _ => some i
  | .absorb i _ => some i
  | .deliver i _ => some i
  | .leave i _ => some i
  | .purge _ => none

namespace Visit

/-- **A visit executes for a key:** it asks for the key and is at the handler, or its response is
being read for the store. -/
def ExecutesFor (g : Guard) (v : Visit) (key : String) : Prop := v.AsksFor g key ∧ v.place.AtHandler

/-- A visit has a claim on the key that it executes for, and has none otherwise. -/
theorem Sound.claim_eq_some_iff {g : Guard} {v : Visit} (h : v.Sound g) (key : String) :
    v.claim = some key ↔ v.ExecutesFor g key := by
  constructor
  · intro hclaim
    unfold Sound at h
    rw [hclaim] at h
    cases hplace : v.place with
    | executing passage =>
      rw [hplace] at h
      exact ⟨h, by rw [hplace]; trivial⟩
    | storing other status headers passage reading =>
      rw [hplace] at h
      exact ⟨h.1 ▸ h.2, by rw [hplace]; trivial⟩
    | _ =>
      rw [hplace] at h
      exact h.elim
  · rintro ⟨hasks, hat⟩
    cases hplace : v.place with
    | executing passage =>
      cases hclaim : v.claim with
      | none => exact absurd hasks (h.of_executing_none hplace hclaim key)
      | some held => rw [(h.of_executing hplace hclaim).unique hasks]
    | storing other status headers passage reading =>
      obtain ⟨hclaim, hother⟩ := h.of_storing hplace
      rw [hclaim, hother.unique hasks]
    | _ =>
      rw [hplace] at hat
      exact hat.elim

/-- The claim on a key keeps its number in a move, unless the visit that moves had it and loses
it. -/
theorem Effect.slot?_pending {g : Guard} {now : Nat} {x after : Ledger} {v : Visit}
    {claim : Option String} (h : Effect g now x v after claim) {key : String} {n : Nat}
    (hslot : x.store.slot? key = some (.pending n))
    (hkept : v.claim = some key → claim = some key) :
    after.store.slot? key = some (.pending n) := by
  cases h with
  | notes => exact hslot
  | takes taken hclaim hasks hfree =>
    have hne : taken ≠ key := by
      intro heq
      rw [heq] at hfree
      exact hfree.not_pending ⟨n, hslot⟩
    exact (Store.slot?_take_of_ne x.store hne).trans hslot
  | givesUp events =>
    cases hclaim : v.claim with
    | none => exact hslot
    | some held =>
      have hne : held ≠ key := by
        intro heq
        rw [heq] at hclaim
        exact absurd (hkept hclaim) nofun
      exact (Store.slot?_release_of_ne x.store hne).trans hslot
  | completes completed status headers passage reading hclaim =>
    have hne : completed ≠ key := by
      intro heq
      rw [heq] at hclaim
      exact absurd (hkept hclaim) nofun
    exact (Store.slot?_complete_of_ne x.store _ now hne).trans hslot

end Visit

namespace Gates

/-- **The visit with a number holds the claim on a key.** -/
def Holds (s : Gates) (i : Nat) (key : String) : Prop :=
  ∃ v, s.visits[i]? = some v ∧ v.claim = some key

/-- The visit with a number executes for a key. -/
def Executes (g : Guard) (s : Gates) (i : Nat) (key : String) : Prop :=
  ∃ v, s.visits[i]? = some v ∧ v.ExecutesFor g key

section

variable {g : Guard} {s : Gates}

theorem Owned.holds_iff_executes (h : Owned g s.world.ledger s.visits) (i : Nat) (key : String) :
    s.Holds i key ↔ s.Executes g i key := by
  refine exists_congr fun v => and_congr_right fun hv => ?_
  exact (h.sound i v hv).claim_eq_some_iff key

theorem Owned.holds_unique (h : Owned g s.world.ledger s.visits) {key : String} {i j : Nat}
    (hi : s.Holds i key) (hj : s.Holds j key) : i = j := by
  obtain ⟨v, hv, hclaim⟩ := hi
  obtain ⟨u, hu, hother⟩ := hj
  exact h.alone i j v u key hv hu hclaim hother

theorem Owned.pending_iff_existsUnique (h : Owned g s.world.ledger s.visits) (key : String) :
    s.world.store.Pending key ↔ ∃! i, s.Holds i key := by
  constructor
  · intro hpending
    obtain ⟨i, v, hv, hclaim⟩ := (h.pending_iff key).1 hpending
    refine ⟨i, ⟨v, hv, hclaim⟩, fun j hj => ?_⟩
    exact h.holds_unique hj ⟨v, hv, hclaim⟩
  · rintro ⟨i, ⟨v, hv, hclaim⟩, -⟩
    exact (h.pending_iff key).2 ⟨i, v, hv, hclaim⟩

/-- Without a visit under way nothing is claimed. -/
theorem Owned.not_pending (h : Owned g s.world.ledger s.visits)
    (hidle : ∀ (i : Nat) (v : Visit), s.visits[i]? = some v → ¬v.place.UnderWay) (key : String) :
    ¬s.world.store.Pending key := by
  intro hpending
  obtain ⟨i, v, hv, hclaim⟩ := (h.pending_iff key).1 hpending
  have hexecutes := ((h.sound i v hv).claim_eq_some_iff key).1 hclaim
  exact hidle i v hv hexecutes.2.underWay

/-! ## Steps of others -/

theorem getElem?_onVisit_of_ne (s : Gates) {i j : Nat} (hne : j ≠ i)
    (f : World → Visit → World × Visit) :
    (s.onVisit j f).visits[i]? = s.visits[i]? := by
  unfold onVisit
  split
  · rfl
  · exact List.getElem?_set_ne hne

/-- A visit stays as it is in the steps of others. -/
theorem getElem?_step_of_ne {a : Action} {i : Nat} {v : Visit} (hv : s.visits[i]? = some v)
    (ha : a.visit? ≠ some i) : (s.step g a).visits[i]? = some v := by
  have hne : ∀ j, a.visit? = some j → j ≠ i := by
    rintro j hj rfl
    exact ha hj
  rw [← hv]
  cases a with
  | arrive request preset now =>
    change (s.visits ++ [_])[i]? = _
    exact List.getElem?_append_left (List.getElem?_eq_some_iff.1 hv).1
  | purge now => rfl
  | resume j timedOut now => exact getElem?_onVisit_of_ne s (hne j rfl) _
  | readRequest j => exact getElem?_onVisit_of_ne s (hne j rfl) _
  | reply j result now => exact getElem?_onVisit_of_ne s (hne j rfl) _
  | absorb j now => exact getElem?_onVisit_of_ne s (hne j rfl) _
  | deliver j now => exact getElem?_onVisit_of_ne s (hne j rfl) _
  | leave j now => exact getElem?_onVisit_of_ne s (hne j rfl) _

/-- **The claim on a key goes on in a step** after which its visit still holds it. -/
theorem Owned.slot?_step (h : Owned g s.world.ledger s.visits) {a : Action} {i : Nat} {key : String}
    {n : Nat} (hholds : s.Holds i key) (hafter : (s.step g a).Holds i key)
    (hslot : s.world.store.slot? key = some (.pending n)) :
    (s.step g a).world.store.slot? key = some (.pending n) := by
  obtain ⟨w, hw, hheld⟩ := hafter
  change s.world.ledger.store.slot? key = _ at hslot
  change (s.step g a).world.ledger.store.slot? key = _
  have hstep := step_ledger g s a
  generalize (s.step g a).world.ledger = after at hstep ⊢
  generalize (s.step g a).visits = visitsAfter at hstep hw
  cases hstep with
  | idle => exact hslot
  | visit j now given v u after hv hmoved =>
    refine (hmoved.moves.effect (h.sound j v hv)).slot?_pending hslot fun hclaim => ?_
    -- a visit that moves and has the claim is the one that holds it, and it still does
    have hij : i = j := h.holds_unique hholds ⟨v, hv, hclaim⟩
    subst hij
    rw [getElem?_set_self hv] at hw
    rw [Option.some.inj hw]
    exact hheld
  | arrive now v u after hfresh hid hmoved =>
    refine (hmoved.moves.effect (hfresh.sound g)).slot?_pending hslot fun hclaim => ?_
    exact absurd (hfresh.claim.symm.trans hclaim) nofun
  | purge now => exact (h.numbered.distinct.pending_purge_iff now).2 hslot

end

/-! ## Runs -/

theorem run_run (g : Guard) (s : Gates) (actions more : List Action) :
    (s.run g actions).run g more = s.run g (actions ++ more) := by
  rw [run, run, run, List.foldl_append]

/-- A claim goes on while nothing but others take steps. -/
theorem holds_run_of_others (g : Guard) (config : Breaker.BreakerConfig) (ttlMs : Option Nat)
    (actions more : List Action) {i : Nat} {key : String} {n : Nat}
    (hholds : ((start (World.start config ttlMs)).run g actions).Holds i key)
    (hslot : ((start (World.start config ttlMs)).run g actions).world.store.slot? key
      = some (.pending n))
    (hothers : ∀ a ∈ more, a.visit? ≠ some i) :
    (((start (World.start config ttlMs)).run g actions).run g more).Holds i key
      ∧ (((start (World.start config ttlMs)).run g actions).run g more).world.store.slot? key
        = some (.pending n) := by
  induction more using List.reverseRecOn with
  | nil => exact ⟨hholds, hslot⟩
  | append_singleton more a ih =>
    obtain ⟨hbefore, hstill⟩ := ih fun b hb => hothers b (List.mem_append_left _ hb)
    have howned := owned_run g config ttlMs (actions ++ more)
    rw [← run_run] at howned
    rw [run_concat]
    have hafter : ((((start (World.start config ttlMs)).run g actions).run g more).step g a).Holds i
        key := by
      obtain ⟨v, hv, hclaim⟩ := hbefore
      exact ⟨v, getElem?_step_of_ne hv (hothers a (by simp)), hclaim⟩
    exact ⟨hafter, howned.slot?_step hbefore hafter hstill⟩

/-- **Claims are exclusive on every run,** with any time to live, any order of the steps of any
number of requests, and removals of old records in between. A key is claimed exactly while one visit
holds the claim on it, and no two do; a visit holds it exactly while it executes for the key, so no
two execute for one key at a time; a claim goes on, by its number, through all steps but those of
its holder; and nothing is claimed when no visit is under way. -/
theorem exclusiveClaims_run (g : Guard) (config : Breaker.BreakerConfig) (ttlMs : Option Nat)
    (actions : List Action) :
    let s := (start (World.start config ttlMs)).run g actions
    (∀ key, s.world.store.Pending key ↔ ∃! i, s.Holds i key)
      ∧ (∀ key i j, s.Holds i key → s.Holds j key → i = j)
      ∧ (∀ key i, s.Holds i key ↔ s.Executes g i key)
      ∧ (∀ key i j, s.Executes g i key → s.Executes g j key → i = j)
      ∧ (∀ key i n more, s.Holds i key → s.world.store.slot? key = some (.pending n) →
          (∀ a ∈ more, a.visit? ≠ some i) →
          (s.run g more).Holds i key ∧ (s.run g more).world.store.slot? key = some (.pending n))
      ∧ ((∀ (i : Nat) (v : Visit), s.visits[i]? = some v → ¬v.place.UnderWay) →
          ∀ key, ¬s.world.store.Pending key) := by
  intro s
  have howned : Owned g s.world.ledger s.visits := owned_run g config ttlMs actions
  refine ⟨howned.pending_iff_existsUnique, fun key i j => howned.holds_unique,
    fun key i => howned.holds_iff_executes i key, fun key i j hi hj => ?_,
    fun key i n more => holds_run_of_others g config ttlMs actions more, howned.not_pending⟩
  exact howned.holds_unique ((howned.holds_iff_executes i key).2 hi)
    ((howned.holds_iff_executes j key).2 hj)

/-- The order comes twice. The first one is dropped at the handler, and the second
one takes over. -/
def handedOver : List Action :=
  [.arrive order none 0, .arrive order none 1, .leave 0 2, .resume 1 false 3]

/-- The second visit is the one that holds the key then. A third one that comes changes nothing
about its claim, nor does a removal of old records; when the handler has failed and the third one
has left, nothing is claimed. -/
theorem exclusiveClaims_run_handedOver :
    let s :=
      (start (World.start Breaker.BreakerConfig.standard (some 0))).run idempotentGuard handedOver
    (∃! i, s.Holds i "k") ∧ s.Executes idempotentGuard 1 "k"
      ∧ (s.run idempotentGuard [.arrive order none 4, .purge 5]).world.store.slot? "k"
        = some (.pending 1)
      ∧ ¬(s.run idempotentGuard [.arrive order none 4, .reply 1 (.error "down") 5,
          .leave 2 6]).world.store.Pending "k" := by
  intro s
  have hclaims := exclusiveClaims_run idempotentGuard Breaker.BreakerConfig.standard (some 0)
  obtain ⟨hpending, -, hexecutes, -, hothers, -⟩ := hclaims handedOver
  have hslot : s.world.store.slot? "k" = some (.pending 1) := by decide
  have hholds : s.Holds 1 "k" := by
    obtain ⟨v, hv, hclaim⟩ : ∃ v, s.visits[1]? = some v ∧ v.claim = some "k" := by decide
    exact ⟨v, hv, hclaim⟩
  have hgoes := hothers "k" 1 1 [.arrive order none 4, .purge 5] hholds hslot (by decide)
  refine ⟨(hpending "k").1 ⟨1, hslot⟩, (hexecutes "k" 1).1 hholds, hgoes.2, ?_⟩
  have hidle : ∀ v ∈ (s.run idempotentGuard [.arrive order none 4, .reply 1 (.error "down") 5,
      .leave 2 6]).visits, ¬v.place.UnderWay := by decide
  obtain ⟨-, -, -, -, -, hnone⟩ :=
    hclaims (handedOver ++ [.arrive order none 4, .reply 1 (.error "down") 5,
      .leave 2 6])
  rw [run_run]
  refine hnone (fun i v hv => ?_) "k"
  rw [← run_run] at hv
  exact hidle v (List.mem_of_getElem? hv)

end Gates
end Gatehouse.Pipeline
