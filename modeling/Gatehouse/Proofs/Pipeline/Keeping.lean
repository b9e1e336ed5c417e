/-
What a visit keeps, whatever it does.

The deeds of a visit are its own: what it notes is noted of it alone, and what it writes is written
by a step about it. So a property of a visit, of the events noted of it and of the records that it
has written can be followed from the moment the visit comes, deed by deed, without a look at the
other visits. `Kept` lists what there is to show for such a property, and `kept_run` says that it
holds of every visit on every run then.

Traffic records have no owner of their own, so the records of a visit are those that the steps about
it have written (`writtenBy`).
-/
import Gatehouse.Proofs.Pipeline.Deeds
import Gatehouse.Proofs.Pipeline.Settlements

set_option autoImplicit false

namespace Gatehouse.Pipeline

open Gatehouse.Http Gatehouse.Idempotency Gatehouse.Traffic

namespace Visit

section

variable {g : Guard} {now : Nat} {v : Visit} {events : List Event} {records : List TrafficRecord}

/-! ## What is noted of a visit -/

theorem visit_of_mem_unclaiming {e : Event} (he : e ∈ v.unclaiming) : e.visit = v.id := by
  obtain ⟨key, -, rfl⟩ := mem_unclaiming_iff.1 he
  rfl

theorem visit_of_mem_settling {place : Place} {e : Event} (he : e ∈ v.settling g place) :
    e.visit = v.id := by
  obtain ⟨-, name, -, rfl⟩ := mem_settling_iff.1 he
  rfl

theorem Passes.visit_eq {place : Place} (h : Passes g now v events place) :
    ∀ e ∈ events, e.visit = v.id := by
  intro e he
  cases h with
  | waits => exact absurd he List.not_mem_nil
  | called key =>
    rcases List.mem_append.1 he with hclaimed | hinvoked
    · obtain ⟨key, -, rfl⟩ := List.mem_map.1 hclaimed
      rfl
    · rw [List.mem_singleton.1 hinvoked]
      rfl
  | _ => rw [List.mem_singleton.1 he]; rfl

/-- What a visit does is noted with its number. -/
theorem Deed.visit_eq {place : Place} (h : Deed g now v events records place) :
    ∀ e ∈ events, e.visit = v.id := by
  intro e he
  cases h with
  | passes key handle _ _ hplace hpasses => exact hpasses.visit_eq e he
  | fails passage error =>
    rcases List.mem_cons.1 he with rfl | hunclaimed
    · rfl
    · exact visit_of_mem_unclaiming hunclaimed
  | captureFails => exact visit_of_mem_unclaiming he
  | leaves => exact visit_of_mem_unclaiming he
  | answers => rw [List.mem_singleton.1 he]; rfl
  | captures => rw [List.mem_singleton.1 he]; rfl
  | stores => rw [List.mem_singleton.1 he]; rfl
  | _ => exact absurd he List.not_mem_nil

theorem visit_append_settling {place : Place} (h : ∀ e ∈ events, e.visit = v.id) :
    ∀ e ∈ events ++ v.settling g place, e.visit = v.id := by
  intro e he
  rcases List.mem_append.1 he with hnoted | hsettled
  · exact h e hnoted
  · exact visit_of_mem_settling hsettled

end

/-! ## What the deeds of a visit keep -/

/-- **Kept by deeds:** a property of a visit, of the events that are noted of it, and of the records
that it has written. It holds of a visit that comes, and goes on holding whatever the visit does. -/
structure Kept (g : Guard) (motive : Visit → List Event → List TrafficRecord → Prop) : Prop where
  denied : ∀ (u : Visit) (name : String) (headers : Headers) (body : Body),
    u.place = .answered .serviceUnavailable headers (.ofBody body) → motive u [.denied u.id name] []
  enters : ∀ (now : Nat) (v u : Visit) (events : List Event), u.id = v.id → u.request = v.request →
    Passes g now v events u.place →
    motive u
      ((v.permit.toList.map fun name => .granted v.id name) ++ (events ++ v.settling g u.place)) []
  does : ∀ (now : Nat) (v u : Visit) (told events : List Event)
      (records added : List TrafficRecord),
    v.GaveBack → motive v told records → u.id = v.id → u.request = v.request →
    Deed g now v events added u.place →
    motive u (told ++ (events ++ v.settling g u.place)) (records ++ added)

/-- What holds of a visit that comes. -/
theorem Comes.kept {g : Guard} {motive : Visit → List Event → List TrafficRecord → Prop}
    (hmotive : Kept g motive) {now number : Nat} {w after : World} {u : Visit}
    (h : Comes g now w number after u) :
    ∃ events, w.Grows after events [] ∧ (∀ e ∈ events, e.visit = number) ∧ motive u events [] := by
  cases h with
  | denied name headers body hid hplace hgrows =>
    subst hid
    refine ⟨_, hgrows, fun e he => ?_, hmotive.denied u name headers body hplace⟩
    rw [List.mem_singleton.1 he]
    rfl
  | enters v asked hnumber hasked henters =>
    subst hnumber
    obtain ⟨events, hid, hrequest, hpasses, hgrows⟩ := henters
    refine ⟨_, hasked.trans hgrows, fun e he => ?_,
      hmotive.enters now v u events hid hrequest hpasses⟩
    rcases List.mem_append.1 he with hgranted | hnoted
    · obtain ⟨name, -, rfl⟩ := List.mem_map.1 hgranted
      rfl
    · exact visit_append_settling hpasses.visit_eq e hnoted

end Visit

namespace World

variable {w after : World} {events : List Event} {records : List TrafficRecord} {i : Nat}

theorem Grows.added_eq (h : w.Grows after events records) {added : List TrafficRecord}
    (hadded : after.outputs.records = w.outputs.records ++ added) : added = records :=
  List.append_cancel_left (hadded.symm.trans h.records)

/-- The events of a visit are those of the history that have its number. -/
theorem mem_eventsOf_iff {e : Event} (h : e.visit = i) : e ∈ w.eventsOf i ↔ e ∈ w.history := by
  rw [eventsOf, List.mem_filter, beq_iff_eq]
  exact and_iff_left h

/-- Events of one visit are added to those of that visit. -/
theorem Grows.eventsOf_self (h : w.Grows after events records)
    (hvisit : ∀ e ∈ events, e.visit = i) :
    after.eventsOf i = w.eventsOf i ++ events := by
  rw [eventsOf_of_history h.history, List.filter_eq_self.2]
  intro e he
  exact beq_iff_eq.2 (hvisit e he)

/-- What happens to one visit is not noted of another. -/
theorem Grows.eventsOf_of_ne (h : w.Grows after events records) (hvisit : ∀ e ∈ events, e.visit = i)
    {j : Nat} (hne : i ≠ j) : after.eventsOf j = w.eventsOf j := by
  have hnone : (events.filter fun e => e.visit == j) = [] := by
    rw [List.filter_eq_nil_iff]
    intro e he heq
    rw [hvisit e he] at heq
    exact hne (beq_iff_eq.1 heq)
  rw [eventsOf_of_history h.history, hnone, List.append_nil]

end World

namespace Gates

/-! ## Runs -/

/-- The traffic records that an action writes. -/
def written (g : Guard) (s : Gates) (a : Action) : List TrafficRecord :=
  (s.step g a).world.outputs.records.drop s.world.outputs.records.length

/-- **The traffic records of a visit:** those that the actions of a run write that are about it. -/
def writtenBy (g : Guard) (i : Nat) : Gates → List Action → List TrafficRecord
  | _, [] => []
  | s, a :: actions =>
    (if s.actor? a = some i then s.written g a else []) ++ writtenBy g i (s.step g a) actions

section

variable {g : Guard}

/-- One more step adds what it has written, if it is about the visit. -/
theorem writtenBy_concat (i : Nat) (s : Gates) (actions : List Action) (a : Action) :
    writtenBy g i s (actions ++ [a])
      = writtenBy g i s actions
        ++ if (s.run g actions).actor? a = some i then (s.run g actions).written g a else [] := by
  induction actions generalizing s with
  | nil =>
    rw [List.nil_append, writtenBy, writtenBy, writtenBy, List.append_nil, List.nil_append]
    rfl
  | cons b actions ih =>
    rw [List.cons_append, writtenBy, writtenBy, ih, List.append_assoc]
    rfl

/-- A step of the gates only adds events and records. -/
theorem DeedStep.grows {s t : Gates} {actor : Option Nat} (h : DeedStep g s actor t) :
    ∃ events records, s.world.Grows t.world events records := by
  cases h with
  | idle after hgrows => exact ⟨[], [], hgrows⟩
  | does i now v u after hv hactor hdoes =>
    obtain ⟨events, records, -, -, -, hgrows⟩ := hdoes
    exact ⟨_, records, hgrows⟩
  | comes now u after hcomes =>
    cases hcomes with
    | denied name headers body hid hplace hgrows => exact ⟨_, [], hgrows⟩
    | enters v asked hnumber hasked henters =>
      obtain ⟨events, -, -, -, hgrows⟩ := henters
      exact ⟨_, [], hasked.trans hgrows⟩

theorem records_step (s : Gates) (a : Action) (hback : ∀ v ∈ s.visits, v.GaveBack) :
    (s.step g a).world.outputs.records = s.world.outputs.records ++ s.written g a := by
  obtain ⟨events, records, hgrows⟩ := (step_deed (g := g) s a hback).grows
  rw [written, hgrows.records, List.drop_left]

/-- **A property is kept** by all visits of a state, where these are the records that each of
them has written. -/
structure Keeps (motive : Visit → List Event → List TrafficRecord → Prop) (s : Gates)
    (records : Nat → List TrafficRecord) : Prop where
  kept : ∀ (i : Nat) (v : Visit), s.visits[i]? = some v → motive v (s.world.eventsOf i) (records i)
  /-- Of a number that nobody has yet nothing has been written. -/
  unborn : ∀ i, s.visits.length ≤ i → records i = []

variable {motive : Visit → List Event → List TrafficRecord → Prop} {s t : Gates}
  {actor : Option Nat} {records : Nat → List TrafficRecord} {added : List TrafficRecord}
  {config : Breaker.BreakerConfig} {outcome : Nat → Option Place}

/-- **A step keeps what deeds keep.** The records that it adds go to the visit that it is about. -/
theorem Keeps.step (h : Keeps motive s records) (hmotive : Visit.Kept g motive)
    (hstep : DeedStep g s actor t) (howned : Owned g s.world.ledger s.visits)
    (haccounted : Accounted g config outcome s)
    (hadded : t.world.outputs.records = s.world.outputs.records ++ added) :
    Keeps motive t fun i => records i ++ if actor = some i then added else [] := by
  cases hstep with
  | idle after hgrows =>
    have hnone := hgrows.added_eq hadded
    -- no event is that of any visit, so the frame lemma for one's own events serves here as well
    have hevents : ∀ i, after.eventsOf i = s.world.eventsOf i := fun i =>
      (hgrows.eventsOf_self (i := i) nofun).trans (List.append_nil _)
    simp only [hnone, ite_self, List.append_nil]
    refine ⟨fun i v hv => ?_, h.unborn⟩
    rw [hevents]
    exact h.kept i v hv
  | does i now v u after hv hactor hdoes =>
    have hnumber := howned.id i v hv
    subst hnumber
    obtain ⟨events, written, hid, hrequest, hdeed, hgrows⟩ := hdoes
    have hwritten := hgrows.added_eq hadded
    have hvisit : ∀ e ∈ events ++ v.settling g u.place, e.visit = v.id :=
      Visit.visit_append_settling hdeed.visit_eq
    subst hactor hwritten
    refine ⟨fun j x hx => ?_, fun j hj => ?_⟩
    · rcases of_getElem?_set hx with ⟨rfl, rfl⟩ | ⟨hne, hold⟩
      · rw [if_pos rfl, hgrows.eventsOf_self hvisit]
        exact hmotive.does now v x _ events _ _
          (haccounted.gaveBack howned v (List.mem_of_getElem? hv))
          (h.kept v.id v hv) hid hrequest hdeed
      · -- to the other visits the step is as good as none
        rw [if_neg fun heq => hne (Option.some.inj heq).symm, List.append_nil,
          hgrows.eventsOf_of_ne hvisit (Ne.symm hne)]
        exact h.kept j x hold
    · rw [List.length_set] at hj
      have hlt := (List.getElem?_eq_some_iff.1 hv).1
      rw [h.unborn j hj, if_neg fun heq => by have := Option.some.inj heq; omega]
      rfl
  | comes now u after hcomes =>
    obtain ⟨events, hgrows, hvisit, hcame⟩ := hcomes.kept hmotive
    have hnone := hgrows.added_eq hadded
    simp only [hnone, ite_self, List.append_nil]
    refine ⟨fun j x hx => ?_, fun j hj => ?_⟩
    · rcases of_getElem?_concat hx with ⟨rfl, rfl⟩ | hold
      · -- nothing was noted or written under the new number before
        obtain ⟨-, hnew⟩ := haccounted.unborn _ (Nat.le_refl _)
        rw [hgrows.eventsOf_self hvisit, hnew, h.unborn _ (Nat.le_refl _)]
        exact hcame
      · have hlt := (List.getElem?_eq_some_iff.1 hold).1
        rw [hgrows.eventsOf_of_ne hvisit (by omega)]
        exact h.kept j x hold
    · rw [List.length_append] at hj
      exact h.unborn j (Nat.le_of_succ_le hj)

theorem keeps_run (hmotive : Visit.Kept g motive) (config : Breaker.BreakerConfig)
    (ttlMs : Option Nat) (actions : List Action) :
    Keeps motive ((start (World.start config ttlMs)).run g actions)
      fun i => writtenBy g i (start (World.start config ttlMs)) actions := by
  induction actions using List.reverseRecOn with
  | nil => exact ⟨fun _ _ hv => (not_getElem?_nil hv).elim, fun _ _ => rfl⟩
  | append_singleton actions a ih =>
    have howned := owned_run g config ttlMs actions
    have haccounted := accounted_run g config ttlMs actions
    have hback := haccounted.gaveBack howned
    have hrecords := records_step (g := g) _ a hback
    simp only [run_concat, writtenBy_concat]
    exact ih.step hmotive (step_deed _ a hback) howned haccounted hrecords

/-- **What a visit keeps:** what holds of a visit that comes, and is kept by its deeds, holds of
every visit on every run. -/
theorem kept_run (hmotive : Visit.Kept g motive) (config : Breaker.BreakerConfig)
    (ttlMs : Option Nat) (actions : List Action) :
    let s₀ := start (World.start config ttlMs)
    ∀ (i : Nat) (v : Visit), (s₀.run g actions).visits[i]? = some v →
      motive v ((s₀.run g actions).world.eventsOf i) (writtenBy g i s₀ actions) :=
  (keeps_run hmotive config ttlMs actions).kept

end

end Gates
end Gatehouse.Pipeline
