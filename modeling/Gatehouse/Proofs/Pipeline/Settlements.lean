/-
Every permission is settled once, by the outcome of its call.

The events of a visit at the breaker gate are few: none, one denial, one permission, or one
permission with one settlement after it. Which of these they are, and how the permission is settled,
is determined by the policy of the visit, by the breaker's answer and by the place in which the
inner call ends; this is the `Course` of a permission. The events are not only notes: the breakers
are what the noted operations make of them (`Performed`). Counting over all visits, a breaker has
given as many permissions as have been settled with it and are still held.
-/
import Gatehouse.Proofs.Pipeline.ExclusiveClaims
import Gatehouse.Proofs.Pipeline.Inner
import Gatehouse.Proofs.Pipeline.Permits
import Mathlib.Data.List.Infix

set_option autoImplicit false

namespace Gatehouse.Pipeline

open Gatehouse.Breaker Gatehouse.Http Gatehouse.Idempotency Gatehouse.Routing Gatehouse.Traffic

/-! ## What the history says of the gate -/

/-- A permission of a breaker is given. -/
def Event.grants (name : String) : Event → Bool
  | .granted _ other => other == name
  | _ => false

/-- A permission of a breaker is settled. -/
def Event.settles (name : String) : Event → Bool
  | .settled _ other _ => other == name
  | _ => false

/-- A permission of a breaker is settled in one way. -/
def Event.settlesAs (name : String) (how : Settlement) : Event → Bool
  | .settled _ other settlement => other == name && settlement == how
  | _ => false

namespace World

def eventsOf (w : World) (i : Nat) : List Event := w.history.filter fun e => e.visit == i

def gateEvents (w : World) : List Event := w.history.filter Event.isGate

/-- How many permissions a breaker has given. -/
def grants (w : World) (name : String) : Nat := w.gateEvents.countP (Event.grants name)

def settlements (w : World) (name : String) : Nat := w.gateEvents.countP (Event.settles name)

/-- How many permissions have been settled with a breaker in one way. -/
def settlementsAs (w : World) (name : String) (how : Settlement) : Nat :=
  w.gateEvents.countP (Event.settlesAs name how)

theorem settlements_eq_sum (w : World) (name : String) :
    w.settlements name
      = w.settlementsAs name .success + w.settlementsAs name .failure
        + w.settlementsAs name .release := by
  unfold settlements settlementsAs
  generalize w.gateEvents = events
  induction events with
  | nil => rfl
  | cons e events ih =>
    simp only [List.countP_cons, ih]
    cases e with
    | settled i other how =>
      cases how <;> cases hname : other == name
        <;> simp [Event.settles, Event.settlesAs, hname] <;> omega
    | _ => simp [Event.settles, Event.settlesAs]

section

variable {i : Nat} {w after : World}

theorem eventsOf_of_history {events : List Event} (h : after.history = w.history ++ events)
    (j : Nat) :
    after.eventsOf j = w.eventsOf j ++ events.filter fun e => e.visit == j := by
  rw [eventsOf, h, List.filter_append]
  rfl

theorem gateEvents_of_history {events : List Event} (h : after.history = w.history ++ events) :
    after.gateEvents = w.gateEvents ++ events.filter Event.isGate := by
  rw [gateEvents, h, List.filter_append]
  rfl

theorem Aside.gateEvents_eq (h : w.Aside i after) : after.gateEvents = w.gateEvents := by
  obtain ⟨more, hhistory, hmore⟩ := h.history
  have hnone : more.filter Event.isGate = [] := by
    rw [List.filter_eq_nil_iff]
    intro e he
    rw [(hmore e he).2]
    exact Bool.false_ne_true
  rw [gateEvents_of_history hhistory, hnone, List.append_nil]

theorem Aside.eventsOf_of_ne (h : w.Aside i after) {j : Nat} (hne : i ≠ j) :
    after.eventsOf j = w.eventsOf j := by
  obtain ⟨more, hhistory, hmore⟩ := h.history
  have hnone : (more.filter fun e => e.visit == j) = [] := by
    rw [List.filter_eq_nil_iff]
    intro e he heq
    rw [(hmore e he).1] at heq
    exact hne (beq_iff_eq.1 heq)
  rw [eventsOf_of_history hhistory, hnone, List.append_nil]

theorem Aside.gateEventsOf_eq (h : w.Aside i after) (j : Nat) :
    (after.eventsOf j).filter Event.isGate = (w.eventsOf j).filter Event.isGate := by
  have hboth : ∀ x : World,
      (x.eventsOf j).filter Event.isGate = x.gateEvents.filter fun e => e.visit == j :=
    fun x => by
      rw [eventsOf, gateEvents, List.filter_filter, List.filter_filter]
      exact List.filter_congr fun e _ => Bool.and_comm _ _
  rw [hboth, hboth, h.gateEvents_eq]

end

end World

/-! ## The course of a permission -/

namespace Visit

/-- The place of a visit that is over. -/
def ended? (v : Visit) : Option Place := if v.place.UnderWay then none else some v.place

/-- **Course of a permission:** the events of a visit of a run, by the place that its call has ended
in. A visit is exempt, or it was denied and nothing else has happened to it, or it was given a
permission, which it holds until its call ends and which is settled then. -/
inductive Course (g : Guard) (v : Visit) (outcome : Option Place) (events : List Event) : Prop where
  | exempt (hneeds : g.needsPermission v.policy = false) (hpermit : v.permit = none)
      (hevents : events.filter Event.isGate = [])
  | denied (hneeds : g.needsPermission v.policy = true) (hpermit : v.permit = none)
      (hplace : ¬v.place.UnderWay) (hevents : events = [.denied v.id v.policy.breakerName])
  | running (hneeds : g.needsPermission v.policy = true)
      (hpermit : v.permit = some v.policy.breakerName) (hplace : v.place.UnderWay)
      (houtcome : outcome = none)
      (hevents : events.filter Event.isGate = [.granted v.id v.policy.breakerName])
  | settled (hneeds : g.needsPermission v.policy = true) (hpermit : v.permit = none)
      (hplace : ¬v.place.UnderWay) (place : Place) (houtcome : outcome = some place)
      (hevents : events.filter Event.isGate
        = [.granted v.id v.policy.breakerName,
            .settled v.id v.policy.breakerName (g.settlement place)])

/-- A visit whose call has not ended, with the events of the gate that it has then. -/
inductive Open (g : Guard) (v : Visit) : List Event → Prop where
  | exempt (hneeds : g.needsPermission v.policy = false) (hpermit : v.permit = none) : Open g v []
  | granted (hneeds : g.needsPermission v.policy = true)
      (hpermit : v.permit = some v.policy.breakerName) :
    Open g v [.granted v.id v.policy.breakerName]

section

variable {g : Guard} {v u : Visit} {outcome : Option Place} {events : List Event}

theorem Course.open_of_underWay (h : Course g v outcome events) (hplace : v.place.UnderWay) :
    Open g v (events.filter Event.isGate) := by
  cases h with
  | exempt hneeds hpermit hevents =>
    rw [hevents]
    exact .exempt hneeds hpermit
  | denied hneeds hpermit hended => exact absurd hplace hended
  | running hneeds hpermit hunderWay houtcome hevents =>
    rw [hevents]
    exact .granted hneeds hpermit
  | settled hneeds hpermit hended => exact absurd hplace hended

/-- A visit that stays what it is keeps its course: an outcome that there is is not replaced. -/
theorem Course.stays (h : Course g v outcome events) : Course g v (outcome.or v.ended?) events := by
  cases h with
  | exempt hneeds hpermit hevents => exact .exempt hneeds hpermit hevents
  | denied hneeds hpermit hplace hevents => exact .denied hneeds hpermit hplace hevents
  | running hneeds hpermit hplace houtcome hevents =>
    refine .running hneeds hpermit hplace ?_ hevents
    rw [houtcome, Option.none_or, ended?, if_pos hplace]
  | settled hneeds hpermit hplace place houtcome hevents =>
    refine .settled hneeds hpermit hplace place ?_ hevents
    rw [houtcome, Option.some_or]

/-- A visit that is over and rests goes on with its course. -/
theorem Course.rests (h : Course g v outcome events) (hplace : ¬v.place.UnderWay)
    (hid : u.id = v.id) (hpolicy : u.policy = v.policy) (hpermit : u.permit = none)
    (hafter : ¬u.place.UnderWay) :
    Course g u (outcome.or u.ended?) events := by
  cases h with
  | exempt hneeds _ hevents => exact .exempt (hpolicy ▸ hneeds) hpermit hevents
  | denied hneeds _ _ hevents =>
    refine .denied (hpolicy ▸ hneeds) hpermit hafter ?_
    rw [hid, hpolicy]
    exact hevents
  | running hneeds _ hunderWay => exact absurd hunderWay hplace
  | settled hneeds _ _ place houtcome hevents =>
    refine .settled (hpolicy ▸ hneeds) hpermit hafter place ?_ ?_
    · rw [houtcome, Option.some_or]
    · rw [hid, hpolicy]
      exact hevents

/-- What a settlement adds to the events of its visit. -/
theorem gateEventsOf_of_settles {i now : Nat} {how : Settlement} {w after : World}
    {permit : Option String} (h : World.Settles i how now w after permit) :
    (after.eventsOf i).filter Event.isGate
      = (w.eventsOf i).filter Event.isGate ++ permit.toList.map fun name =>
        .settled i name how := by
  cases h with
  | nothing hregistry hhistory =>
    rw [World.eventsOf, hhistory, Option.toList_none, List.map_nil, List.append_nil]
    rfl
  | permission name hregistry hhistory =>
    rw [World.eventsOf_of_history hhistory, List.filter_append]
    simp [Event.visit, Event.isGate]

/-- **A step carries an open visit on its course:** it stays open, or its call ends and the
permission is settled as the place says. -/
theorem Carries.course {now : Nat} {w after : World} (h : Carries g now w v after u)
    (hopen : Open g v ((w.eventsOf v.id).filter Event.isGate)) (hid : u.id = v.id)
    (hpolicy : u.policy = v.policy)
    (houtcome : g.needsPermission v.policy = true → outcome = none) :
    Course g u (outcome.or u.ended?) (after.eventsOf v.id) := by
  have hbreaker : u.policy.breakerName = v.policy.breakerName := by rw [hpolicy]
  cases h with
  | goesOn haside hpermit hplace =>
    have hsame := haside.gateEventsOf_eq v.id
    generalize (w.eventsOf v.id).filter Event.isGate = events at hopen hsame
    cases hopen with
    | exempt hneeds hnone => exact .exempt (hpolicy ▸ hneeds) (hpermit.trans hnone) hsame
    | granted hneeds hsome =>
      refine .running (hpolicy ▸ hneeds)
        (hpermit.trans (hsome.trans (congrArg some hbreaker.symm))) hplace ?_ ?_
      · rw [houtcome hneeds, Option.none_or, ended?, if_pos hplace]
      · rw [hsame, hid, hbreaker]
  | ends before haside hsettles hpermit hplace =>
    have hadded := gateEventsOf_of_settles hsettles
    rw [haside.gateEventsOf_eq v.id] at hadded
    generalize (w.eventsOf v.id).filter Event.isGate = events at hopen hadded
    cases hopen with
    | exempt hneeds hnone =>
      rw [hnone] at hadded
      exact .exempt (hpolicy ▸ hneeds) hpermit hadded
    | granted hneeds hsome =>
      rw [hsome] at hadded
      refine .settled (hpolicy ▸ hneeds) hpermit hplace u.place ?_ ?_
      · rw [houtcome hneeds, Option.none_or, ended?, if_neg hplace]
      · rw [hadded, hid, hbreaker]
        rfl

theorem Course.permit_of_ended (h : Course g v outcome events) (hended : ¬v.place.UnderWay) :
    v.permit = none := by
  cases h with
  | exempt hneeds hpermit => exact hpermit
  | denied hneeds hpermit => exact hpermit
  | running hneeds hpermit hplace => exact absurd hplace hended
  | settled hneeds hpermit => exact hpermit

theorem Sound.claim_of_ended (h : v.Sound g) (hended : ¬v.place.UnderWay) : v.claim = none := by
  cases hclaim : v.claim with
  | none => rfl
  | some key =>
    have hexecutes := (h.claim_eq_some_iff key).1 hclaim
    exact absurd hexecutes.2.underWay hended

end

end Visit

/-! ## Breakers and counts -/

/-- **Performed:** the breakers of a registry are what the noted operations have made of new ones,
and what was noted of a request is what the breaker answered. -/
inductive Performed (config : BreakerConfig) : List Event → Registry → Prop where
  | start : Performed config [] (Registry.ofConfig config)
  | granted (events : List Event) (r : Registry) (visit : Nat) (name : String) (now : Nat)
      (h : Performed config events r) (hgranted : (r.perform name now .acquire).1 = true) :
    Performed config (events ++ [.granted visit name]) (r.perform name now .acquire).2.1
  | denied (events : List Event) (r : Registry) (visit : Nat) (name : String) (now : Nat)
      (h : Performed config events r) (hdenied : (r.perform name now .acquire).1 = false) :
    Performed config (events ++ [.denied visit name]) (r.perform name now .acquire).2.1
  | settled (events : List Event) (r : Registry) (visit : Nat) (name : String) (how : Settlement)
      (now : Nat) (h : Performed config events r) :
    Performed config (events ++ [.settled visit name how]) (r.perform name now how.operation).2.1

namespace Visit

def holds (name : String) (v : Visit) : Bool := v.permit == some name

section

variable {g : Guard} {config : BreakerConfig} {now number : Nat} {w after : World} {v u : Visit}

theorem Carries.eventsOf_of_ne (h : Carries g now w v after u) {j : Nat} (hne : v.id ≠ j) :
    after.eventsOf j = w.eventsOf j := by
  cases h with
  | goesOn haside => exact haside.eventsOf_of_ne hne
  | ends before haside hsettles =>
    rw [← haside.eventsOf_of_ne hne]
    generalize v.permit = permit at hsettles
    cases hsettles with
    | nothing hregistry hhistory => rw [World.eventsOf, hhistory]; rfl
    | permission name hregistry hhistory =>
      rw [World.eventsOf_of_history hhistory]
      simp [Event.visit, hne]

theorem Carries.performed (h : Carries g now w v after u)
    (hw : Performed config w.gateEvents w.registry) :
    Performed config after.gateEvents after.registry := by
  cases h with
  | goesOn haside =>
    rw [haside.gateEvents_eq, haside.registry]
    exact hw
  | ends before haside hsettles =>
    rw [← haside.gateEvents_eq, ← haside.registry] at hw
    generalize v.permit = permit at hsettles
    cases hsettles with
    | nothing hregistry hhistory =>
      rw [hregistry, World.gateEvents, hhistory]
      exact hw
    | permission name hregistry hhistory =>
      rw [hregistry, World.gateEvents_of_history hhistory]
      exact hw.settled _ _ v.id name _ now

/-- A permission that is not held any more has been settled. -/
theorem Carries.counts (h : Carries g now w v after u) (name : String) :
    after.grants name = w.grants name
      ∧ after.settlements name + (if u.holds name then 1 else 0)
        = w.settlements name + (if v.holds name then 1 else 0) := by
  cases h with
  | goesOn haside hpermit =>
    rw [World.grants, World.settlements, haside.gateEvents_eq, holds, hpermit]
    exact ⟨rfl, rfl⟩
  | ends before haside hsettles hpermit =>
    have hgrants : before.grants name = w.grants name := by
      rw [World.grants, haside.gateEvents_eq]; rfl
    have hsettlements : before.settlements name = w.settlements name := by
      rw [World.settlements, haside.gateEvents_eq]; rfl
    rw [← hgrants, ← hsettlements, holds, holds, hpermit]
    generalize v.permit = permit at hsettles
    cases hsettles with
    | nothing hregistry hhistory =>
      rw [World.grants, World.settlements, World.gateEvents, hhistory]
      exact ⟨rfl, rfl⟩
    | permission other hregistry hhistory =>
      rw [World.grants, World.settlements, World.gateEvents_of_history hhistory, List.countP_append,
        List.countP_append]
      refine ⟨?_, ?_⟩
      · simp [Event.isGate, Event.grants, World.grants]
      · have hone : (List.filter Event.isGate [.settled v.id other (g.settlement u.place)]).countP
            (Event.settles name) = if some other == some name then 1 else 0 := by
          simp [List.filter_cons, Event.isGate, Event.settles, List.countP_cons]
        rw [hone]
        rfl

/-! ### Arrivals -/

/-- **A visit that comes starts on its course.** -/
theorem Arrives.course (h : Arrives g now w number after u) (hnew : w.eventsOf number = []) :
    Course g u u.ended? (after.eventsOf number) := by
  rw [← Option.none_or (o := u.ended?)]
  cases h with
  | exempt v hnumber hneeds hpermit hid hpolicy hcarries =>
    subst hnumber
    refine hcarries.course ?_ hid hpolicy fun _ => rfl
    rw [hnew]
    exact .exempt hneeds hpermit
  | granted v asked hnumber hneeds hpermit hgranted hregistry hhistory hid hpolicy hcarries =>
    subst hnumber
    have hasked : (asked.eventsOf v.id).filter Event.isGate
        = [.granted v.id v.policy.breakerName] := by
      rw [World.eventsOf_of_history hhistory, hnew]
      simp [Event.visit, Event.isGate]
    refine hcarries.course ?_ hid hpolicy fun _ => rfl
    rw [hasked]
    exact .granted hneeds hpermit
  | denied hnumber hneeds hpermit hdenied hregistry hhistory hplace =>
    subst hnumber
    refine .denied hneeds hpermit hplace ?_
    rw [World.eventsOf_of_history hhistory, hnew]
    simp [Event.visit]

theorem Arrives.eventsOf_of_ne (h : Arrives g now w number after u) {j : Nat} (hne : number ≠ j) :
    after.eventsOf j = w.eventsOf j := by
  cases h with
  | exempt v hnumber _ _ _ _ hcarries => exact hcarries.eventsOf_of_ne (hnumber ▸ hne)
  | granted v asked hnumber _ _ _ _ hhistory _ _ hcarries =>
    subst hnumber
    rw [hcarries.eventsOf_of_ne hne, World.eventsOf_of_history hhistory]
    simp [Event.visit, hne]
  | denied hnumber _ _ _ _ hhistory =>
    subst hnumber
    rw [World.eventsOf_of_history hhistory]
    simp [Event.visit, hne]

theorem Arrives.performed (h : Arrives g now w number after u)
    (hw : Performed config w.gateEvents w.registry) :
    Performed config after.gateEvents after.registry := by
  cases h with
  | exempt v _ _ _ _ _ hcarries => exact hcarries.performed hw
  | granted v asked _ _ _ hgranted hregistry hhistory _ _ hcarries =>
    refine hcarries.performed ?_
    rw [hregistry, World.gateEvents_of_history hhistory]
    exact hw.granted _ _ v.id _ now hgranted
  | denied _ _ _ hdenied hregistry hhistory =>
    rw [hregistry, World.gateEvents_of_history hhistory]
    exact hw.denied _ _ u.id _ now hdenied

/-- A permission that is given to a visit that comes is held by it, or has been settled already. -/
theorem Arrives.counts (h : Arrives g now w number after u) (name : String) :
    after.grants name + w.settlements name
      = w.grants name + after.settlements name + (if u.holds name then 1 else 0) := by
  cases h with
  | exempt v _ _ hpermit _ _ hcarries =>
    obtain ⟨hgrants, hsettlements⟩ := hcarries.counts name
    have hnone : v.holds name = false := by rw [holds, hpermit]; rfl
    rw [hnone] at hsettlements
    rw [hgrants, Nat.add_assoc, hsettlements]
    rfl
  | granted v asked _ _ hpermit _ _ hhistory _ _ hcarries =>
    obtain ⟨hgrants, hsettlements⟩ := hcarries.counts name
    have hgiven : asked.grants name = w.grants name + (if v.holds name then 1 else 0) := by
      rw [World.grants, World.gateEvents_of_history hhistory, List.countP_append, holds, hpermit]
      simp [List.filter_cons, Event.isGate, Event.grants, World.grants, List.countP_cons]
    have hsame : asked.settlements name = w.settlements name := by
      rw [World.settlements, World.gateEvents_of_history hhistory, List.countP_append]
      rfl
    omega
  | denied _ _ hpermit _ _ hhistory =>
    have hnone : u.holds name = false := by rw [holds, hpermit]; rfl
    have hgrants : after.grants name = w.grants name := by
      rw [World.grants, World.gateEvents_of_history hhistory, List.countP_append]
      rfl
    have hsettlements : after.settlements name = w.settlements name := by
      rw [World.settlements, World.gateEvents_of_history hhistory, List.countP_append]
      rfl
    rw [hnone, hgrants, hsettlements]
    rfl

/-! ### Turns -/

theorem Turn.course (h : Turn g now w v after u) {outcome : Option Place}
    (hcourse : Course g v outcome (w.eventsOf v.id)) (hid : u.id = v.id)
    (hpolicy : u.policy = v.policy) :
    Course g u (outcome.or u.ended?) (after.eventsOf v.id) := by
  cases h with
  | carries hplace hcarries =>
    refine hcarries.course (hcourse.open_of_underWay hplace) hid hpolicy fun hneeds => ?_
    cases hcourse with
    | exempt hexempt => exact absurd (hneeds.symm.trans hexempt) nofun
    | denied _ _ hended => exact absurd hplace hended
    | running _ _ _ houtcome => exact houtcome
    | settled _ _ hended => exact absurd hplace hended
  | rests hplace hregistry hhistory hpermit hafter =>
    have hsame : after.eventsOf v.id = w.eventsOf v.id := by rw [World.eventsOf, hhistory]; rfl
    rw [hsame]
    exact hcourse.rests hplace hid hpolicy hpermit hafter

theorem Turn.eventsOf_of_ne (h : Turn g now w v after u) {j : Nat} (hne : v.id ≠ j) :
    after.eventsOf j = w.eventsOf j := by
  cases h with
  | carries hplace hcarries => exact hcarries.eventsOf_of_ne hne
  | rests hplace hregistry hhistory => rw [World.eventsOf, hhistory]; rfl

theorem Turn.performed (h : Turn g now w v after u)
    (hw : Performed config w.gateEvents w.registry) :
    Performed config after.gateEvents after.registry := by
  cases h with
  | carries hplace hcarries => exact hcarries.performed hw
  | rests hplace hregistry hhistory =>
    rw [hregistry, World.gateEvents, hhistory]
    exact hw

theorem Turn.counts (h : Turn g now w v after u) (hback : ¬v.place.UnderWay → v.permit = none)
    (name : String) :
    after.grants name = w.grants name
      ∧ after.settlements name + (if u.holds name then 1 else 0)
        = w.settlements name + (if v.holds name then 1 else 0) := by
  cases h with
  | carries hplace hcarries => exact hcarries.counts name
  | rests hplace hregistry hhistory hpermit =>
    rw [World.grants, World.settlements, World.gateEvents, hhistory, holds, holds,
      hpermit, hback hplace]
    exact ⟨rfl, rfl⟩

end

end Visit

/-! ## Runs -/

namespace Gates

/-- How many visits hold a permission of a breaker. -/
def held (s : Gates) (name : String) : Nat := s.visits.countP (Visit.holds name)

/-- The place in which the visit with a number stands if it is over. -/
def ended? (s : Gates) (i : Nat) : Option Place := (s.visits[i]?).bind Visit.ended?

/-- **Outcome of a visit** in a run: the place in which it stood first when its call was over. -/
def outcome? (g : Guard) (s : Gates) (actions : List Action) (i : Nat) : Option Place :=
  actions.inits.findSome? fun before => (s.run g before).ended? i

theorem outcome?_concat (g : Guard) (s : Gates) (actions : List Action) (a : Action) (i : Nat) :
    outcome? g s (actions ++ [a]) i
      = (outcome? g s actions i).or ((s.run g (actions ++ [a])).ended? i) := by
  unfold outcome?
  rw [List.inits_append, List.findSome?_append]
  simp [List.inits]

theorem held_set {s : Gates} {i : Nat} {v u : Visit} (hv : s.visits[i]? = some v) (w : World)
    (name : String) :
    held { world := w, visits := s.visits.set i u } name + (if v.holds name then 1 else 0)
      = s.held name + (if u.holds name then 1 else 0) := by
  obtain ⟨hi, rfl⟩ := List.getElem?_eq_some_iff.1 hv
  have hcounted : (if s.visits[i].holds name then 1 else 0) ≤ s.visits.countP (Visit.holds name) :=
    List.boole_getElem_le_countP hi
  rw [held, held, List.countP_set hi]
  omega

/-- **Invariant:** every visit is on its course, and the books of the gate are right. -/
structure Accounted (g : Guard) (config : BreakerConfig) (outcome : Nat → Option Place)
    (s : Gates) : Prop where
  course : ∀ (i : Nat) (v : Visit), s.visits[i]? = some v →
    Visit.Course g v (outcome i) (s.world.eventsOf i)
  unborn : ∀ i, s.visits.length ≤ i → outcome i = none ∧ s.world.eventsOf i = []
  performed : Performed config s.world.gateEvents s.world.registry
  balanced : ∀ name, s.world.grants name = s.world.settlements name + s.held name

section

variable {g : Guard} {config : BreakerConfig} {outcome : Nat → Option Place} {s t : Gates}

theorem ended?_of_getElem? {i : Nat} {v : Visit} (hv : s.visits[i]? = some v) :
    s.ended? i = v.ended? := by
  rw [ended?, hv, Option.bind_some]

theorem ended?_of_length_le {i : Nat} (hi : s.visits.length ≤ i) : s.ended? i = none := by
  rw [ended?, List.getElem?_eq_none hi, Option.bind_none]

/-- **A step keeps the books.** -/
theorem Accounted.step (h : Accounted g config outcome s)
    (hids : ∀ (i : Nat) (v : Visit), s.visits[i]? = some v → v.id = i) (hstep : GateStep g s t) :
    Accounted g config (fun i => (outcome i).or (t.ended? i)) t := by
  cases hstep with
  | idle after hregistry hhistory =>
    have hevents : ∀ i, after.eventsOf i = s.world.eventsOf i := fun i => by
      rw [World.eventsOf, hhistory]; rfl
    have hgate : after.gateEvents = s.world.gateEvents := by rw [World.gateEvents, hhistory]; rfl
    refine ⟨fun i v hv => ?_, fun i hi => ?_, ?_, fun name => ?_⟩
    · rw [ended?_of_getElem? hv, hevents]
      exact (h.course i v hv).stays
    · rw [ended?_of_length_le hi, hevents, Option.or_none]
      exact h.unborn i hi
    · rw [hgate, hregistry]
      exact h.performed
    · rw [World.grants, World.settlements, hgate]
      exact h.balanced name
  | turns i now v u after hv hid hpolicy hturn =>
    have hnumber := hids i v hv
    subst hnumber
    refine ⟨fun j x hx => ?_, fun j hj => ?_, hturn.performed h.performed, fun name => ?_⟩
    · rw [ended?_of_getElem? hx]
      rcases of_getElem?_set hx with ⟨rfl, rfl⟩ | ⟨hne, hold⟩
      · exact hturn.course (h.course v.id v hv) hid hpolicy
      · rw [hturn.eventsOf_of_ne (Ne.symm hne)]
        exact (h.course j x hold).stays
    · rw [List.length_set] at hj
      have hne : v.id ≠ j := by
        have hlt := (List.getElem?_eq_some_iff.1 hv).1
        omega
      rw [ended?_of_length_le (by rw [List.length_set]; exact hj), hturn.eventsOf_of_ne hne,
        Option.or_none]
      exact h.unborn j hj
    · obtain ⟨hgrants, hsettlements⟩ := hturn.counts (h.course v.id v hv).permit_of_ended name
      have hheld := held_set (u := u) hv after name
      have hbalanced := h.balanced name
      change after.grants name = after.settlements name + _
      omega
  | arrives now u after harrives =>
    obtain ⟨houtcome, hnew⟩ := h.unborn s.visits.length (Nat.le_refl _)
    refine ⟨fun j x hx => ?_, fun j hj => ?_, harrives.performed h.performed, fun name => ?_⟩
    · rw [ended?_of_getElem? hx]
      rcases of_getElem?_concat hx with ⟨rfl, rfl⟩ | hold
      · rw [houtcome, Option.none_or]
        exact harrives.course hnew
      · have hlt := (List.getElem?_eq_some_iff.1 hold).1
        rw [harrives.eventsOf_of_ne (by omega)]
        exact (h.course j x hold).stays
    · have hlt : s.visits.length < j := by
        rw [List.length_append] at hj
        exact hj
      rw [ended?_of_length_le hj, harrives.eventsOf_of_ne (by omega), Option.or_none]
      exact h.unborn j (Nat.le_of_lt hlt)
    · have hcounts := harrives.counts name
      have hbalanced := h.balanced name
      have hheld : held { world := after, visits := s.visits ++ [u] } name
          = s.held name + (if u.holds name then 1 else 0) := by
        rw [held, List.countP_append, List.countP_singleton]
        rfl
      change after.grants name = after.settlements name + _
      omega

end

/-- A visit that is over has given back what it had. -/
theorem Accounted.gaveBack {g : Guard} {config : BreakerConfig} {outcome : Nat → Option Place}
    {s : Gates} (h : Accounted g config outcome s) (howned : Owned g s.world.ledger s.visits) :
    ∀ v ∈ s.visits, v.GaveBack := by
  intro v hmem hended
  obtain ⟨i, hi⟩ := List.mem_iff_getElem?.1 hmem
  exact ⟨(h.course i v hi).permit_of_ended hended, (howned.sound i v hi).claim_of_ended hended⟩

theorem accounted_start (g : Guard) (config : BreakerConfig) (ttlMs : Option Nat) :
    Accounted g config (outcome? g (start (World.start config ttlMs)) [])
      (start (World.start config ttlMs)) where
  course := fun _ _ hv => (not_getElem?_nil hv).elim
  unborn := fun _ _ => ⟨rfl, rfl⟩
  performed := .start
  balanced := fun _ => rfl

theorem accounted_run (g : Guard) (config : BreakerConfig) (ttlMs : Option Nat)
    (actions : List Action) :
    Accounted g config (outcome? g (start (World.start config ttlMs)) actions)
      ((start (World.start config ttlMs)).run g actions) := by
  induction actions using List.reverseRecOn with
  | nil => exact accounted_start g config ttlMs
  | append_singleton actions a ih =>
    have howned := owned_run g config ttlMs actions
    have hstep := ih.step howned.id (step_gate _ a (ih.gaveBack howned))
    rw [← run_concat] at hstep
    have houtcome : outcome? g (start (World.start config ttlMs)) (actions ++ [a])
        = fun i => (outcome? g (start (World.start config ttlMs)) actions i).or
          (((start (World.start config ttlMs)).run g (actions ++ [a])).ended? i) :=
      funext fun i => outcome?_concat g _ actions a i
    rw [houtcome]
    exact hstep

/-- Without a visit under way no permission is held. -/
theorem Accounted.held_eq_zero {g : Guard} {config : BreakerConfig} {outcome : Nat → Option Place}
    {s : Gates} (h : Accounted g config outcome s)
    (hidle : ∀ (i : Nat) (v : Visit), s.visits[i]? = some v → ¬v.place.UnderWay) (name : String) :
    s.held name = 0 := by
  refine List.countP_eq_zero.2 fun v hmem hholds => ?_
  obtain ⟨i, hi⟩ := List.mem_iff_getElem?.1 hmem
  have hnone := (h.course i v hi).permit_of_ended (hidle i v hi)
  rw [Visit.holds, hnone] at hholds
  exact absurd hholds nofun

/-- **On every run each permission is settled once, by the outcome of its call.** A visit that needs
a permission is denied, and then nothing else happens to it, or it is given one, which it holds as
long as its call is under way; as the call ends it is settled: as a failure if the inner service
failed or its answer counts as a failure, as a success after any other answer, and without an
outcome if the visit was dropped. The breakers are what these operations make of them. The inner
service does what it does without the gate: a step of the gates is a step of the inner service,
unless it is a denial. A breaker has given as many permissions as were settled with it and are still
held, and none is held when no visit is under way. -/
theorem settledOnce_run (g : Guard) (config : BreakerConfig) (ttlMs : Option Nat)
    (actions : List Action) :
    let s₀ := start (World.start config ttlMs)
    let s := s₀.run g actions
    (∀ (i : Nat) (v : Visit), s.visits[i]? = some v →
        Visit.Course g v (outcome? g s₀ actions i) (s.world.eventsOf i))
      ∧ Performed config s.world.gateEvents s.world.registry
      ∧ (∀ (t : Gates) (a : Action), s.Alike t → ¬Denies g s a →
          (s.step g a).Alike (t.step g.inner a))
      ∧ (∀ name, s.world.grants name
          = s.world.settlementsAs name .success + s.world.settlementsAs name .failure
            + s.world.settlementsAs name .release + s.held name)
      ∧ ((∀ (i : Nat) (v : Visit), s.visits[i]? = some v → ¬v.place.UnderWay) →
          ∀ name, s.world.grants name
            = s.world.settlementsAs name .success + s.world.settlementsAs name .failure
              + s.world.settlementsAs name .release) := by
  intro s₀ s
  have haccounted : Accounted g config (outcome? g s₀ actions) s :=
    accounted_run g config ttlMs actions
  have hbalanced : ∀ name, s.world.grants name
      = s.world.settlementsAs name .success + s.world.settlementsAs name .failure
        + s.world.settlementsAs name .release + s.held name := by
    intro name
    rw [haccounted.balanced name, World.settlements_eq_sum]
  refine ⟨haccounted.course, haccounted.performed,
    fun t a halike hadmitted => halike.step a hadmitted, hbalanced, fun hidle name => ?_⟩
  rw [hbalanced name, haccounted.held_eq_zero hidle name, Nat.add_zero]

/-- Gates with the breaker layer alone, for which answers with server errors are failures. -/
def breakerGuard : Guard :=
  { idempotentGuard with
    layers := { breaker := true, idempotency := false, recording := false }
    rules := { rules := [], defaultPolicy := RoutePolicy.fresh }
    recordServerErrors := true }

/-- One failure opens a breaker. -/
def openedByOne : BreakerConfig :=
  { BreakerConfig.standard with
    defaults :=
      { Breaker.Settings.standard with slidingWindowSize := 1, minimumNumberOfCalls := 1 } }

/-- Four calls are admitted. One is answered, one is dropped, one is answered with a server error,
which opens the breaker, and one fails; a fifth request comes to the open breaker. -/
def fourCalls : List Action :=
  [.arrive order none 0, .arrive order none 0, .arrive order none 0, .arrive order none 0,
    .reply 0 (.ok { status := ⟨200⟩, headers := Headers.empty, body := Body.empty }) 1, .leave 1 2,
    .reply 2 (.ok { status := ⟨503⟩, headers := Headers.empty, body := Body.empty }) 3,
    .arrive order none 4, .reply 3 (.error "down") 5]

/-- No visit is under way any more, so the four permissions are the four settlements; the fifth
request was denied. -/
theorem settledOnce_run_fourCalls :
    let s := (start (World.start openedByOne none)).run breakerGuard fourCalls
    (∀ v ∈ s.visits, ¬v.place.UnderWay)
      ∧ s.world.grants "default"
        = s.world.settlementsAs "default" .success + s.world.settlementsAs "default" .failure
          + s.world.settlementsAs "default" .release
      ∧ s.world.settlementsAs "default" .success = 1 ∧ s.world.settlementsAs "default" .failure = 2
      ∧ s.world.settlementsAs "default" .release = 1
      ∧ s.world.eventsOf 4 = [.denied 4 "default"] := by
  intro s
  have hidle : ∀ v ∈ s.visits, ¬v.place.UnderWay := by decide
  obtain ⟨-, -, -, -, hcounts⟩ := settledOnce_run breakerGuard openedByOne none fourCalls
  have hbalanced := hcounts (fun i v hv => hidle v (List.mem_of_getElem? hv)) "default"
  refine ⟨hidle, hbalanced, by decide, by decide, by decide, ?_⟩
  rfl

end Gates
end Gatehouse.Pipeline
