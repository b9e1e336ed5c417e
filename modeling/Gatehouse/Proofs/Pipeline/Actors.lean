/-
Steps seen from the visit that they are about.

`step_ledger`, `step_gate` and `step_deed` say what a step can do to the gates; here it is said
which visit does it. A step about a visit is the arrival of a request, which becomes the next visit,
or an action on a visit that is there, and then it is one function of the world and that visit
(`Visit.act`, `about_step`). All other visits stay what they are.

What a run comes to for one visit is often put together from what each action contributes;
`gathered` is that, for contributions of any kind.
-/
import Gatehouse.Proofs.Pipeline.Keeping

set_option autoImplicit false

namespace Gatehouse.Pipeline

open Gatehouse.Http Gatehouse.Idempotency Gatehouse.Routing Gatehouse.Traffic

namespace Visit

/-- **What an action makes of the visit that it is about,** if that is there already. -/
def act (g : Guard) (w : World) (v : Visit) : Action → World × Visit
  | .resume _ timedOut now => v.resume g w timedOut now
  | .readRequest _ => (w, v.readRequest.2)
  | .reply _ result now => v.reply g w result now
  | .absorb _ now => v.absorb g w now
  | .deliver _ now => (v.deliver g w now).2
  | .leave _ now => v.leave g w now
  | .arrive _ _ _ => (w, v)
  | .purge _ => (w, v)

theorem moved_act (g : Guard) (w : World) (v : Visit) (a : Action) :
    ∃ now given, Moved g now given w.ledger v (v.act g w a).1.ledger (v.act g w a).2 := by
  cases a with
  | resume i timedOut now => exact ⟨now, none, moved_resume g now none w v timedOut⟩
  | readRequest i => exact ⟨0, none, moved_readRequest g 0 none w v⟩
  | reply i result now =>
    cases result with
    | error error => exact ⟨now, none, moved_reply_error g now none w v error⟩
    | ok response => exact ⟨now, some response, moved_reply_ok g now w v response⟩
  | absorb i now => exact ⟨now, none, moved_absorb g now none w v⟩
  | deliver i now => exact ⟨now, none, moved_deliver g now none w v⟩
  | leave i now => exact ⟨now, none, moved_leave g now none w v⟩
  | arrive request preset now => exact ⟨now, none, moved_stays g now none w.ledger v⟩
  | purge now => exact ⟨now, none, moved_stays g now none w.ledger v⟩

theorem does_act {g : Guard} (w : World) {v : Visit} (h : v.GaveBack) (a : Action) :
    ∃ now, Does g now w v (v.act g w a).1 (v.act g w a).2 := by
  cases a with
  | resume i timedOut now => exact ⟨now, does_resume now w h timedOut⟩
  | readRequest i => exact ⟨0, does_readRequest 0 w h⟩
  | reply i result now => exact ⟨now, does_reply now w h result⟩
  | absorb i now => exact ⟨now, does_absorb now w h⟩
  | deliver i now => exact ⟨now, does_deliver now w h⟩
  | leave i now => exact ⟨now, does_leave now w v⟩
  | arrive request preset now => exact ⟨now, does_stays now h⟩
  | purge now => exact ⟨now, does_stays now h⟩

/-- A visit has the request that comes, and gets its policy as it comes. -/
theorem request_policy_arrive (g : Guard) (w : World) (id : Nat) (request : Request)
    (preset : Option RoutePolicy) (now : Nat) :
    (arrive g w id request preset now).2.request = request
      ∧ (arrive g w id request preset now).2.policy = g.policyFor preset request := by
  have henter : ∀ (w : World) (v : Visit), v.Fresh → (v.enter g w now).2.request = v.request
      ∧ (v.enter g w now).2.policy = v.policy := fun w v hfresh =>
    ⟨(moved_enter g now none w v hfresh).request, (moved_enter g now none w v hfresh).policy⟩
  unfold arrive
  by_cases hneeds : g.needsPermission (g.policyFor preset request) = true
  · simp only [hneeds, if_true]
    split
    · exact henter _ _ ⟨rfl, rfl⟩
    · exact ⟨rfl, rfl⟩
  · simp only [hneeds]
    exact henter _ _ ⟨rfl, rfl⟩

end Visit

namespace Gates

/-- **A step about a visit:** a request comes and becomes the next visit, or a visit that is there
acts. The last two arguments are the world and the visit after it. -/
inductive About (g : Guard) (s : Gates) (i : Nat) (a : Action) (after : World)
    (u : Visit) : Prop where
  | arrives (request : Request) (preset : Option RoutePolicy) (now : Nat)
      (ha : a = .arrive request preset now) (hnext : i = s.visits.length)
      (hafter : Visit.arrive g s.world i request preset now = (after, u))
  | acts (v : Visit) (hv : s.visits[i]? = some v) (ha : a.visit? = some i)
      (hafter : v.act g s.world a = (after, u))

section

variable {g : Guard} {s : Gates} {a : Action} {i : Nat} {u : Visit}

theorem step_eq_onVisit (ha : a.visit? = some i) :
    s.step g a = s.onVisit i fun w v => v.act g w a := by
  cases a with
  | _ => cases ha <;> rfl

/-- An action on a visit that is there is a step of that visit. -/
theorem step_of_getElem? {v : Visit} (hv : s.visits[i]? = some v) (ha : a.visit? = some i) :
    s.step g a
      = { world := (v.act g s.world a).1, visits := s.visits.set i (v.act g s.world a).2 } := by
  rw [step_eq_onVisit ha, onVisit, hv]

/-- An action on a visit that is not there does nothing. -/
theorem step_of_none (hnone : s.visits[i]? = none) (ha : a.visit? = some i) : s.step g a = s := by
  rw [step_eq_onVisit ha, onVisit, hnone]

theorem length_onVisit (s : Gates) (i : Nat) (f : World → Visit → World × Visit) :
    (s.onVisit i f).visits.length = s.visits.length := by
  unfold onVisit
  split
  · rfl
  · exact List.length_set

/-- A visit that has come stays among the visits. -/
theorem length_le_step (g : Guard) (s : Gates) (a : Action) :
    s.visits.length ≤ (s.step g a).visits.length := by
  cases a with
  | arrive request preset now =>
    rw [visits_step_arrive, List.length_append]
    exact Nat.le_add_right _ _
  | purge now => exact Nat.le_refl _
  | _ => exact Nat.le_of_eq (length_onVisit s _ _).symm

/-- An action about a visit is the arrival of the next one, or an action on it. -/
theorem arrives_or_acts (hactor : s.actor? a = some i) :
    (∃ request preset now, a = .arrive request preset now ∧ i = s.visits.length)
      ∨ a.visit? = some i := by
  cases a with
  | arrive request preset now =>
    exact .inl ⟨request, preset, now, rfl, (Option.some.inj hactor).symm⟩
  | _ => exact .inr hactor

theorem actor?_of_visit? (ha : a.visit? = some i) : s.actor? a = some i := by
  cases a with
  | arrive request preset now => cases ha
  | _ => exact ha

/-- **A step is about the visit that it concerns.** -/
theorem about_step (hactor : s.actor? a = some i) (hu : (s.step g a).visits[i]? = some u) :
    About g s i a (s.step g a).world u := by
  rcases arrives_or_acts hactor with ⟨request, preset, now, rfl, rfl⟩ | ha
  · rcases of_getElem?_concat hu with ⟨-, rfl⟩ | hold
    · exact .arrives request preset now rfl rfl rfl
    · exact absurd (List.getElem?_eq_some_iff.1 hold).1 (Nat.lt_irrefl _)
  · cases hv : s.visits[i]? with
    | none =>
      rw [step_of_none hv ha, hv] at hu
      cases hu
    | some v =>
      rw [step_of_getElem? hv ha] at hu ⊢
      cases (getElem?_set_self hv).symm.trans hu
      exact .acts v hv ha rfl

/-- A visit that a step is not about was there before, as it is. -/
theorem getElem?_of_step_of_ne (hu : (s.step g a).visits[i]? = some u) (hne : s.actor? a ≠ some i) :
    s.visits[i]? = some u := by
  cases hv : s.visits[i]? with
  | some v =>
    have hkept := getElem?_step_of_ne (g := g) hv fun ha => hne (actor?_of_visit? ha)
    exact hkept.symm.trans hu
  | none =>
    cases ha : a.visit? with
    | some j =>
      have hother : j ≠ i := fun heq => hne (actor?_of_visit? (heq ▸ ha))
      rw [step_eq_onVisit ha, getElem?_onVisit_of_ne s hother, hv] at hu
      cases hu
    | none =>
      cases a with
      | arrive request preset now =>
        rcases of_getElem?_concat hu with ⟨rfl, -⟩ | hold
        · exact absurd rfl hne
        · exact absurd (hv.symm.trans hold) nofun
      | purge now => exact absurd (hv.symm.trans hu) nofun
      | _ => cases ha

/-- **What has moved in a step about a visit:** the visit as it was before, or a fresh one. -/
theorem About.moved {after : World} (h : About g s i a after u)
    (howned : Owned g s.world.ledger s.visits) :
    ∃ now given v, v.Sound g ∧ v.id = i
      ∧ Visit.Moved g now given s.world.ledger v after.ledger u := by
  cases h with
  | arrives request preset now ha hnext hafter =>
    obtain ⟨v, hfresh, hid, hmoved⟩ := Visit.moved_arrive g now none s.world i request preset
    rw [hafter] at hmoved
    exact ⟨now, none, v, hfresh.sound g, hid, hmoved⟩
  | acts v hv ha hafter =>
    obtain ⟨now, given, hmoved⟩ := Visit.moved_act g s.world v a
    rw [hafter] at hmoved
    exact ⟨now, given, v, howned.sound i v hv, howned.id i v hv, hmoved⟩

/-- A visit that has come stays, with its request and its policy. -/
theorem known_step {v : Visit} (hv : s.visits[i]? = some v) (a : Action) :
    ∃ u, (s.step g a).visits[i]? = some u ∧ u.request = v.request ∧ u.policy = v.policy := by
  by_cases ha : a.visit? = some i
  · obtain ⟨now, given, hmoved⟩ := Visit.moved_act g s.world v a
    rw [step_of_getElem? hv ha]
    exact ⟨_, getElem?_set_self hv, hmoved.request, hmoved.policy⟩
  · exact ⟨v, getElem?_step_of_ne hv ha, rfl, rfl⟩

/-- **Whatever a step notes** is noted of the visit that it is about. -/
theorem grows_step (howned : Owned g s.world.ledger s.visits) (hback : ∀ v ∈ s.visits, v.GaveBack)
    (a : Action) :
    ∃ events records, s.world.Grows (s.step g a).world events records
      ∧ ∀ e ∈ events, s.actor? a = some e.visit := by
  cases hactor : s.actor? a with
  | none =>
    cases a with
    | purge now => exact ⟨[], [], (World.Grows.refl s.world).withStore _, nofun⟩
    | _ => cases hactor
  | some i =>
    rcases arrives_or_acts hactor with ⟨request, preset, now, rfl, rfl⟩ | ha
    · have hcomes := Visit.comes_arrive (g := g) now s.world s.visits.length request preset
      obtain ⟨events, hgrows, hvisit, -⟩ :=
        hcomes.kept (motive := fun _ _ _ => True)
          ⟨fun _ _ _ _ _ => trivial, fun _ _ _ _ _ _ _ => trivial,
          fun _ _ _ _ _ _ _ _ _ _ _ _ => trivial⟩
      exact ⟨events, [], hgrows, fun e he => congrArg some (hvisit e he).symm⟩
    · cases hv : s.visits[i]? with
      | none =>
        rw [step_of_none hv ha]
        exact ⟨[], [], .refl s.world, nofun⟩
      | some v =>
        obtain ⟨now, hdoes⟩ := Visit.does_act (g := g) s.world (hback v (List.mem_of_getElem? hv)) a
        obtain ⟨events, records, hid, hrequest, hdeed, hgrows⟩ := hdoes
        rw [step_of_getElem? hv ha]
        refine ⟨_, records, hgrows, fun e he => congrArg some ?_⟩
        exact (howned.id i v hv).symm.trans (Visit.visit_append_settling hdeed.visit_eq e he).symm

/-- What is noted of the visit that a step is about is added to its events, and to nobody else's. -/
theorem eventsOf_of_grows {w after : World} {events : List Event} {records : List TrafficRecord}
    {actor : Option Nat} (h : w.Grows after events records)
    (hvisit : ∀ e ∈ events, actor = some e.visit) (i : Nat) :
    after.eventsOf i = w.eventsOf i ++ if actor = some i then events else [] := by
  rw [World.eventsOf_of_history h.history]
  split
  · next hactor =>
    rw [List.filter_eq_self.2]
    exact fun e he => beq_iff_eq.2 (Option.some.inj ((hvisit e he).symm.trans hactor))
  · next hactor =>
    rw [List.filter_eq_nil_iff.2]
    exact fun e he heq => hactor (beq_iff_eq.1 heq ▸ hvisit e he)

/-- Nothing is taken out of the history. -/
theorem mem_history_step (hback : ∀ v ∈ s.visits, v.GaveBack) {e : Event}
    (he : e ∈ s.world.history) :
    e ∈ (s.step g a).world.history := by
  obtain ⟨events, records, hgrows⟩ := (step_deed (g := g) s a hback).grows
  rw [hgrows.history]
  exact List.mem_append_left events he

end

/-! ## What is gathered in a run -/

/-- **What the actions of a run contribute,** in order. -/
def gathered {α : Type} (g : Guard) (contribution : Gates → Action → List α) :
    Gates → List Action → List α
  | _, [] => []
  | s, a :: actions => contribution s a ++ gathered g contribution (s.step g a) actions

theorem gathered_concat {α : Type} (g : Guard) (contribution : Gates → Action → List α) (s : Gates)
    (actions : List Action) (a : Action) :
    gathered g contribution s (actions ++ [a])
      = gathered g contribution s actions ++ contribution (s.run g actions) a := by
  induction actions generalizing s with
  | nil => exact List.append_nil _
  | cons b actions ih =>
    rw [List.cons_append, gathered, gathered, ih, List.append_assoc]
    rfl

/-- What an action contributes that is on a visit with a number. -/
def contributed {α : Type} (i : Nat) (contribution : World → Visit → Action → List α) (s : Gates)
    (a : Action) :
    List α :=
  if a.visit? = some i then ((s.visits[i]?).map fun v => contribution s.world v a).getD [] else []

section

variable {α : Type} {i : Nat} {contribution : World → Visit → Action → List α} {s : Gates}
  {a : Action}

theorem contributed_of_ne (h : a.visit? ≠ some i) : contributed i contribution s a = [] := if_neg h

theorem contributed_of_getElem? {v : Visit} (hv : s.visits[i]? = some v) (ha : a.visit? = some i) :
    contributed i contribution s a = contribution s.world v a := by
  rw [contributed, if_pos ha, hv]
  rfl

/-- A number that nobody has yet has nothing contributed to it. -/
theorem gathered_of_length_le (g : Guard) (contribution : World → Visit → Action → List α)
    (s : Gates) (actions : List Action) (hi : (s.run g actions).visits.length ≤ i) :
    gathered g (contributed i contribution) s actions = [] := by
  induction actions using List.reverseRecOn with
  | nil => rfl
  | append_singleton actions a ih =>
    rw [run_concat] at hi
    have hbefore : (s.run g actions).visits.length ≤ i := Nat.le_trans (length_le_step g _ a) hi
    rw [gathered_concat, ih hbefore, contributed, List.getElem?_eq_none hbefore, Option.map_none,
      Option.getD_none, ite_self]
    rfl

end

end Gates
end Gatehouse.Pipeline
