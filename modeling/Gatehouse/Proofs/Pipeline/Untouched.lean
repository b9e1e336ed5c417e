/-
What lies behind a gate is not touched by those who do not pass it.

A visit is turned away by its breaker, or at the idempotency gate because it has no key that can be
used. It is answered by the gates then, and all that happens to it afterwards is that this answer is
read or dropped: the handler is never called for it, nothing is written, and the store is what it
was. The visits that a gate lets through without asking are the other side: of what that gate keeps,
they change nothing (`untouched_run`).

That nothing is called or written can be followed deed by deed (`kept_turnedAway`). For the store it
is enough to know which events a visit may have: whatever changes the store is noted
(`Effect.store_of_denied`), and it takes a key to change it (`Effect.store_of_no_key`).
-/
import Gatehouse.Proofs.Pipeline.Outcomes
import Gatehouse.Proofs.Pipeline.Unguarded

set_option autoImplicit false

namespace Gatehouse.Pipeline

open Gatehouse.Http Gatehouse.Idempotency Gatehouse.Routing Gatehouse.Traffic

/-! ## Keys that cannot be used -/

/-- **Keyless:** the header of the key is absent, it is empty, or it is no text. -/
inductive Keyless (header : HeaderName) (request : Request) : Prop where
  | absent (h : request.headers.get? header = none)
  | empty (h : request.headers.get? header = some [])
  | garbled (value : Bytes) (h : request.headers.get? header = some value)
      (hgarbled : value.toString? = none)

namespace Visit

theorem keyless_iff {g : Guard} {request : Request} :
    Keyless g.keyHeader request ↔ ∃ refusal, key? g request = .error refusal := by
  unfold key?
  constructor
  · intro h
    cases h with
    | absent h => rw [h]; exact ⟨_, rfl⟩
    | empty h => rw [h]; exact ⟨_, rfl⟩
    | garbled value h hgarbled =>
      rw [h]
      cases value with
      | nil => exact ⟨_, rfl⟩
      | cons first rest =>
        dsimp only
        rw [hgarbled]
        exact ⟨_, rfl⟩
  · rintro ⟨refusal, h⟩
    split at h
    · rename_i hvalue
      exact .absent hvalue
    · rename_i hvalue
      exact .empty hvalue
    · rename_i value hnonempty hvalue
      split at h
      · rename_i hgarbled
        exact .garbled value hvalue hgarbled
      · cases h

/-! ## The store -/

section

variable {g : Guard} {now : Nat} {x after : Ledger} {v : Visit} {claim : Option String}

/-- **A visit that asks for no key** leaves the store as it is. -/
theorem Effect.store_of_no_key (h : Effect g now x v after claim) (hv : v.Sound g)
    (hnone : ∀ key, ¬v.AsksFor g key) : after.store = x.store := by
  have hunclaimed : ∀ key, v.claim ≠ some key := fun key hkey =>
    hnone key ((hv.claim_eq_some_iff key).1 hkey).1
  cases h with
  | notes events hquiet => rfl
  | takes key hclaim hasks hfree => exact absurd hasks (hnone key)
  | givesUp events hquiet => rw [Option.eq_none_iff_forall_ne_some.2 hunclaimed]; rfl
  | completes key status headers passage reading hclaim => exact absurd hclaim (hunclaimed key)

/-- **A visit of which only a denial is noted** leaves the store as it is. -/
theorem Effect.store_of_denied (h : Effect g now x v after claim) {name : String}
    (hdenied : ∀ e ∈ after.decisions, e.visit = v.id → e = .denied v.id name) :
    after.store = x.store := by
  cases h with
  | notes events hquiet => rfl
  | takes key hclaim hasks hfree =>
    have hclaimed : Event.claimed v.id key ∈ (x.take v.id key).decisions := by
      simp [Ledger.take, Ledger.note]
    cases hdenied _ hclaimed rfl
  | givesUp events hquiet =>
    cases hclaim : v.claim with
    | none => rfl
    | some key =>
      rw [hclaim] at hdenied
      have hunclaimed : Event.unclaimed v.id key
          ∈ ((x.noteAll events).giveUp v.id (some key)).decisions := by
        simp [Ledger.giveUp, Ledger.note]
      cases hdenied _ hunclaimed rfl
  | completes key status headers passage reading hclaim hplace hbody =>
    have hstored : Event.stored v.id
        (Record.ofResponse key { status, headers, body := reading.data })
        ∈ (x.complete v.id (Record.ofResponse key { status, headers, body := reading.data })
            now).decisions := by
      simp [Ledger.complete, Ledger.note]
    cases hdenied _ hstored rfl

end

end Visit

/-! ## Those who are turned away -/

/-- **A visit is turned away:** its breaker has denied it, or it had no usable key. -/
def TurnedAway (i : Nat) (events : List Event) : Prop :=
  (∃ name, .denied i name ∈ events) ∨ .keyRefused i ∈ events

/-- The place of a visit that is turned away: it has the answer of a gate, or it is gone. -/
def Place.Dismissed (place : Place) : Prop :=
  place = .gone ∨ ∃ status headers body, place = .answered status headers (.ofBody body)

/-- **Dismissal:** a visit that is turned away is dismissed, its handler has not been called, and
nothing has been written of it. What waits at the gate has not called anything either. -/
structure Dismissal (i : Nat) (place : Place) (events : List Event)
    (records : List TrafficRecord) : Prop where
  away : TurnedAway i events → place.Dismissed ∧ .invoked i ∉ events ∧ records = []
  waiting : ∀ key handle, place = .waiting key handle → .invoked i ∉ events ∧ records = []

section

variable {g : Guard} {now : Nat} {i : Nat} {v u : Visit} {told events : List Event}
  {records : List TrafficRecord} {place : Place}

theorem turnedAway_append_iff :
    TurnedAway i (told ++ events) ↔ TurnedAway i told ∨ TurnedAway i events := by
  simp only [TurnedAway, List.mem_append, exists_or]
  exact or_or_or_comm ..

@[simp] theorem not_turnedAway_nil : ¬TurnedAway i [] := by simp [TurnedAway]

@[simp] theorem not_turnedAway_settling : ¬TurnedAway i (v.settling g place) := by simp [TurnedAway]

@[simp] theorem not_turnedAway_unclaiming : ¬TurnedAway i v.unclaiming := by simp [TurnedAway]

/-- Only a visit without a usable key is turned away at the idempotency gate. -/
theorem Visit.Passes.away (h : Passes g now v events place) (haway : TurnedAway v.id events) :
    place.Dismissed ∧ .invoked v.id ∉ events := by
  cases h with
  | refused headers body => exact ⟨.inr ⟨_, headers, body, rfl⟩, by simp⟩
  | called key => cases key <;> simp [TurnedAway] at haway
  | replays record waited => simp [TurnedAway] at haway
  | waits key handle => exact absurd haway not_turnedAway_nil
  | rejected key headers body => simp [TurnedAway] at haway

theorem Visit.Passes.waiting {key : String} {handle : InFlight}
    (h : Passes g now v events (.waiting key handle)) :
    events = [] := by
  cases h with
  | waits => rfl

/-- What is dismissed already is read or dropped, and nothing is written of it. -/
theorem Visit.Deed.dismissed (h : Deed g now v events records place) (hback : v.GaveBack)
    (hdismissed : v.place.Dismissed) : place.Dismissed ∧ events = [] ∧ records = [] := by
  have hclaim : v.claim = none := by
    refine (hback ?_).2
    rcases hdismissed with hgone | ⟨status, headers, body, hanswered⟩
    · rw [hgone]; exact not_false
    · rw [hanswered]; exact not_false
  have helsewhere : ∀ {other : Place}, v.place = other → ¬other.Dismissed → False := fun heq hnot =>
    hnot (heq ▸ hdismissed)
  cases h with
  | stays => exact ⟨hdismissed, rfl, rfl⟩
  | delivers status headers passage hplace =>
    rcases hdismissed with hgone | ⟨_, _, body, hanswered⟩
    · exact nomatch hgone.symm.trans hplace
    · obtain ⟨rfl, rfl, rfl⟩ := Place.answered.inj (hplace.symm.trans hanswered)
      exact ⟨.inr ⟨status, headers, body.poll.2, rfl⟩, rfl, rfl⟩
  | leaves =>
    refine ⟨.inl rfl, by rw [unclaiming, hclaim]; rfl, ?_⟩
    rcases hdismissed with hgone | ⟨status, headers, body, hanswered⟩
    · rw [droppedEmission, hgone]; rfl
    · rw [droppedEmission, hanswered]; rfl
  | passes key handle events place hplace =>
    exact (helsewhere hplace (by simp [Place.Dismissed])).elim
  | reads passage hplace => exact (helsewhere hplace (by simp [Place.Dismissed])).elim
  | fails passage error hplace => exact (helsewhere hplace (by simp [Place.Dismissed])).elim
  | answers passage response hplace => exact (helsewhere hplace (by simp [Place.Dismissed])).elim
  | captures key passage response hplace =>
    exact (helsewhere hplace (by simp [Place.Dismissed])).elim
  | absorbs _ _ _ _ _ _ hplace => exact (helsewhere hplace (by simp [Place.Dismissed])).elim
  | captureFails _ _ _ _ _ _ _ _ hplace =>
    exact (helsewhere hplace (by simp [Place.Dismissed])).elim
  | stores _ _ _ _ _ _ hplace => exact (helsewhere hplace (by simp [Place.Dismissed])).elim

/-- A visit that has not been turned away is so at most as it passes the idempotency gate. -/
theorem Visit.Deed.away (h : Deed g now v events records place) (haway : TurnedAway v.id events) :
    ∃ key handle, v.place = .waiting key handle ∧ Passes g now v events place ∧ records = [] := by
  cases h with
  | passes key handle _ _ hplace hpasses => exact ⟨key, handle, hplace, hpasses, rfl⟩
  | stays => exact absurd haway not_turnedAway_nil
  | captureFails => exact absurd haway not_turnedAway_unclaiming
  | leaves => exact absurd haway not_turnedAway_unclaiming
  | _ => simp [TurnedAway] at haway

theorem Visit.Deed.waiting {key : String} {handle : InFlight}
    (h : Deed g now v events records (.waiting key handle)) :
    (∃ key handle, v.place = .waiting key handle) ∧ events = [] ∧ records = [] := by
  generalize hplace : Place.waiting key handle = place at h
  cases h with
  | stays => exact ⟨⟨key, handle, hplace.symm⟩, rfl, rfl⟩
  | passes other held _ _ hwaiting hpasses =>
    subst hplace
    exact ⟨⟨other, held, hwaiting⟩, hpasses.waiting, rfl⟩
  | _ => cases hplace

/-- **Whatever a visit does,** its dismissal stays one. -/
theorem Dismissal.deed (h : Dismissal v.id v.place told records) (hback : v.GaveBack)
    {added : List TrafficRecord} (hdeed : Visit.Deed g now v events added place) :
    Dismissal v.id place (told ++ (events ++ v.settling g place)) (records ++ added) := by
  refine ⟨fun haway => ?_, fun key handle hwaiting => ?_⟩
  · rw [turnedAway_append_iff, turnedAway_append_iff, or_iff_left not_turnedAway_settling] at haway
    rcases haway with hbefore | hnow
    · obtain ⟨hdismissed, hnever, rfl⟩ := h.away hbefore
      obtain ⟨hstill, rfl, rfl⟩ := hdeed.dismissed hback hdismissed
      exact ⟨hstill, by simpa using hnever, rfl⟩
    · obtain ⟨key, handle, hplace, hpasses, rfl⟩ := hdeed.away hnow
      obtain ⟨hnever, rfl⟩ := h.waiting key handle hplace
      obtain ⟨hdismissed, hquiet⟩ := hpasses.away hnow
      exact ⟨hdismissed, by simp [hnever, hquiet], rfl⟩
  · subst hwaiting
    obtain ⟨⟨other, held, hplace⟩, rfl, rfl⟩ := hdeed.waiting
    obtain ⟨hnever, rfl⟩ := h.waiting other held hplace
    exact ⟨by simpa using hnever, rfl⟩

theorem kept_dismissal (g : Guard) :
    Visit.Kept g fun v events records => Dismissal v.id v.place events records where
  denied := fun u name headers body hplace =>
    ⟨fun _ => ⟨.inr ⟨_, headers, body, hplace⟩, by simp, rfl⟩,
      fun key handle hwaiting => nomatch hplace.symm.trans hwaiting⟩
  enters := fun now v u events hid hrequest hpasses => by
    refine ⟨fun haway => ?_, fun key handle hwaiting => ?_⟩
    · rw [hid, turnedAway_append_iff, turnedAway_append_iff,
        or_iff_left not_turnedAway_settling] at haway
      rcases haway with hgranted | hnow
      · simp [TurnedAway] at hgranted
      · obtain ⟨hdismissed, hquiet⟩ := hpasses.away hnow
        exact ⟨hdismissed, by simp [hid, hquiet], rfl⟩
    · rw [hwaiting] at hpasses
      exact ⟨by simp [hpasses.waiting], rfl⟩
  does := fun now v u told events records added hback h hid hrequest hdeed => by
    rw [hid]
    exact h.deed hback hdeed

end

/-! ## Coming to a gate -/

namespace Visit

section

variable {g : Guard} (w : World) (v : Visit) (now : Nat)

theorem mem_history_answer {e : Event} (he : e ∈ w.history) (status : Status) (headers : Headers)
    (passage : Passage) :
    e ∈ (v.answer g w status headers passage now).1.history := by
  rw [(grows_answer now (World.Grows.refl w) v status headers passage).history]
  exact List.mem_append_left _ he

/-- A visit that needs a key and has none is told so. -/
theorem keyRefused_enter (hneeds : g.needsKey v.policy = true)
    (hkeyless : Keyless g.keyHeader v.request) :
    .keyRefused v.id ∈ (v.enter g w now).1.history := by
  obtain ⟨refusal, hkey⟩ := keyless_iff.1 hkeyless
  rw [enter, if_pos hneeds, hkey]
  refine mem_history_answer _ v now ?_ _ _ _
  exact List.mem_append_right _ (List.mem_singleton.2 rfl)

variable (id : Nat) (request : Request) (preset : Option RoutePolicy)

/-- A request that its breaker does not admit is denied. -/
theorem denied_arrive (hneeds : g.needsPermission (g.policyFor preset request) = true)
    (hdenied : (w.registry.perform (g.policyFor preset request).breakerName now .acquire).1
      = false) :
    .denied id (g.policyFor preset request).breakerName
      ∈ (arrive g w id request preset now).1.history := by
  have hanswer : (w.breaker (g.policyFor preset request).breakerName now .acquire).1 = false :=
    hdenied
  unfold arrive
  simp only [hneeds, if_true, hanswer, Bool.false_eq_true, if_false]
  refine mem_history_answer _ _ now ?_ _ _ _
  exact List.mem_append_right _ (List.mem_singleton.2 rfl)

/-- A request that needs a key and has none is turned away, by its breaker or for
want of the key. -/
theorem turnedAway_arrive (hneeds : g.needsKey (g.policyFor preset request) = true)
    (hkeyless : Keyless g.keyHeader request) :
    TurnedAway id (arrive g w id request preset now).1.history := by
  by_cases hpermission : g.needsPermission (g.policyFor preset request) = true
  · cases hanswer : (w.registry.perform (g.policyFor preset request).breakerName now .acquire).1
      with
    | false => exact .inl ⟨_, denied_arrive w now id request preset hpermission hanswer⟩
    | true =>
      refine .inr ?_
      have hgranted : (w.breaker (g.policyFor preset request).breakerName now .acquire).1 = true :=
        hanswer
      unfold arrive
      simp only [hpermission, if_true, hgranted]
      exact keyRefused_enter _ ⟨id, request, now, g.policyFor preset request, some _, none, .gone⟩
        now hneeds hkeyless
  · refine .inr ?_
    unfold arrive
    simp only [hpermission]
    exact keyRefused_enter w ⟨id, request, now, g.policyFor preset request, none, none, .gone⟩ now
      hneeds hkeyless

end

end Visit

namespace Gates

section

variable {g : Guard} {config : Breaker.BreakerConfig} {ttlMs : Option Nat} {actions : List Action}
  {i : Nat} {u : Visit}

theorem turnedAway_eventsOf_iff {w : World} :
    TurnedAway i (w.eventsOf i) ↔ TurnedAway i w.history :=
  or_congr (exists_congr fun _ => World.mem_eventsOf_iff rfl) (World.mem_eventsOf_iff rfl)

/-- **On every run** a visit that needs a key and has none has been turned away. -/
theorem turnedAway_of_keyless
    (hu : ((start (World.start config ttlMs)).run g actions).visits[i]? = some u)
    (hneeds : g.needsKey u.policy = true) (hkeyless : Keyless g.keyHeader u.request) :
    TurnedAway i ((start (World.start config ttlMs)).run g actions).world.history := by
  induction actions using List.reverseRecOn generalizing u with
  | nil => exact (not_getElem?_nil hu).elim
  | append_singleton actions a ih =>
    have howned := owned_run g config ttlMs actions
    have hback := (accounted_run g config ttlMs actions).gaveBack howned
    have hstays : TurnedAway i ((start (World.start config ttlMs)).run g actions).world.history →
        TurnedAway i
          (((start (World.start config ttlMs)).run g actions).step g a).world.history := by
      rintro (⟨name, hdenied⟩ | hrefused)
      · exact .inl ⟨name, mem_history_step hback hdenied⟩
      · exact .inr (mem_history_step hback hrefused)
    rw [run_concat] at hu ⊢
    by_cases hactor : ((start (World.start config ttlMs)).run g actions).actor? a = some i
    · cases about_step hactor hu with
      | arrives request preset now ha hnext hafter =>
        obtain ⟨hrequest, hpolicy⟩ := Visit.request_policy_arrive g
          ((start (World.start config ttlMs)).run g actions).world i request preset now
        have haway :=
          Visit.turnedAway_arrive (g := g)
            ((start (World.start config ttlMs)).run g actions).world now i
            request preset
        rw [hafter] at hrequest hpolicy haway
        rw [hpolicy] at hneeds
        rw [hrequest] at hkeyless
        exact haway hneeds hkeyless
      | acts v hv ha hafter =>
        obtain ⟨now, given, hmoved⟩ :=
          Visit.moved_act g ((start (World.start config ttlMs)).run g actions).world v a
        rw [hafter] at hmoved
        rw [hmoved.policy] at hneeds
        rw [hmoved.request] at hkeyless
        exact hstays (ih hv hneeds hkeyless)
    · exact hstays (ih (getElem?_of_step_of_ne hu hactor) hneeds hkeyless)

/-- Of a visit that was denied nothing but the denial is noted. -/
theorem events_of_denied {outcome : Option Place} {events : List Event}
    (h : Visit.Course g u outcome events) {name : String} (hdenied : .denied i name ∈ events) :
    events = [.denied u.id u.policy.breakerName] := by
  have hgate : .denied i name ∈ events.filter Event.isGate := List.mem_filter.2 ⟨hdenied, rfl⟩
  cases h with
  | exempt hneeds hpermit hevents => simp [hevents] at hgate
  | denied hneeds hpermit hplace hevents => exact hevents
  | running hneeds hpermit hplace houtcome hevents => simp [hevents] at hgate
  | settled hneeds hpermit hplace place houtcome hevents => simp [hevents] at hgate

/-- A visit that needs no permission has none. -/
theorem permit_of_exempt {outcome : Option Place} {events : List Event}
    (h : Visit.Course g u outcome events) (hexempt : g.needsPermission u.policy = false) :
    u.permit = none := by
  cases h with
  | exempt hneeds hpermit => exact hpermit
  | denied hneeds hpermit => exact hpermit
  | running hneeds => exact absurd (hneeds.symm.trans hexempt) nofun
  | settled hneeds hpermit => exact hpermit

variable {a : Action}

/-- **A step leaves the store as it is** if it is about a visit that was denied or
asks for no key. -/
theorem store_of_step
    (hactor : ((start (World.start config ttlMs)).run g actions).actor? a = some i)
    (hu : ((start (World.start config ttlMs)).run g (actions ++ [a])).visits[i]? = some u)
    (hbarred : (∃ name,
      .denied i name ∈ ((start (World.start config ttlMs)).run g (actions ++ [a])).world.history)
      ∨ ∀ key, ¬u.AsksFor g key) :
    ((start (World.start config ttlMs)).run g (actions ++ [a])).world.store
      = ((start (World.start config ttlMs)).run g actions).world.store := by
  have haccounted := accounted_run g config ttlMs (actions ++ [a])
  have hid := (owned_run g config ttlMs (actions ++ [a])).id i u hu
  rw [run_concat] at *
  obtain ⟨now, given, v, hsound, hnumber, hmoved⟩ :=
    (about_step hactor hu).moved (owned_run g config ttlMs actions)
  have heffect := hmoved.moves.effect hsound
  rcases hbarred with ⟨name, hdenied⟩ | hnone
  · have honly :=
      events_of_denied (haccounted.course i u hu) ((World.mem_eventsOf_iff rfl).2 hdenied)
    have hdenial : ∀ e ∈ (((start (World.start config ttlMs)).run g actions).step g
        a).world.ledger.decisions,
        e.visit = v.id → e = .denied v.id u.policy.breakerName := by
      intro e he hvisit
      have hevent :=
        (World.mem_eventsOf_iff (hvisit.trans hnumber)).2 (mem_history_of_mem_decisions he)
      rw [honly, List.mem_singleton, hid] at hevent
      rwa [hnumber]
    exact heffect.store_of_denied hdenial
  · rw [hmoved.asksFor] at hnone
    exact heffect.store_of_no_key hsound hnone

/-- **A step about a visit that has been turned away** writes nothing, and the handler is
not called for it. -/
theorem unheard_of_turnedAway
    (hactor : ((start (World.start config ttlMs)).run g actions).actor? a = some i)
    (hu : ((start (World.start config ttlMs)).run g (actions ++ [a])).visits[i]? = some u)
    (haway : TurnedAway i
      ((start (World.start config ttlMs)).run g (actions ++ [a])).world.history) :
    ((start (World.start config ttlMs)).run g (actions ++ [a])).world.outputs.records
        = ((start (World.start config ttlMs)).run g actions).world.outputs.records
      ∧ .invoked i ∉ ((start (World.start config ttlMs)).run g (actions ++ [a])).world.history := by
  have hdismissal := kept_run (kept_dismissal g) config ttlMs (actions ++ [a]) i u hu
  have hback := (accounted_run g config ttlMs actions).gaveBack (owned_run g config ttlMs actions)
  rw [(owned_run g config ttlMs (actions ++ [a])).id i u hu] at hdismissal
  obtain ⟨-, hnever, hnothing⟩ := hdismissal.away (turnedAway_eventsOf_iff.2 haway)
  rw [writtenBy_concat, if_pos hactor] at hnothing
  refine ⟨?_, fun hcalled => hnever ((World.mem_eventsOf_iff rfl).2 hcalled)⟩
  rw [run_concat, records_step _ a hback, (List.append_eq_nil_iff.1 hnothing).2, List.append_nil]

end

/-- **The layers behind a gate** are not touched by visits that do not pass it, and neither is
what a gate keeps by those that do not have to. Of every reachable state and every step from
it, and of the visit that the step is about, be it the arrival of its request or anything that
is done to it later:
- a request that needs a permission which its breaker does not give is denied;
- if its breaker has denied it, or it needs a key and has none that can be used, then the handler is
  not called for it, the store stays as it is and no traffic record is written;
- if it needs no permission, the breakers stay as they are and none is created, and none is looked
  at either: whatever breakers there were instead, the same would have happened;
- if it needs no key, the store stays as it is;
- if it needs neither, the handler was called for it, and its client has exactly what the
  handler returned. -/
theorem untouched_run (g : Guard) (config : Breaker.BreakerConfig) (ttlMs : Option Nat)
    (actions : List Action) (a : Action) :
    let s₀ := start (World.start config ttlMs)
    let s := s₀.run g actions
    let t := s₀.run g (actions ++ [a])
    ∀ (i : Nat) (u : Visit), s.actor? a = some i → t.visits[i]? = some u →
      (∀ request preset now, a = .arrive request preset now → g.needsPermission u.policy = true →
          (s.world.registry.perform u.policy.breakerName now .acquire).1 = false →
          .denied i u.policy.breakerName ∈ t.world.history)
        ∧ ((∃ name, .denied i name ∈ t.world.history)
            ∨ g.needsKey u.policy = true ∧ Keyless g.keyHeader u.request →
          .invoked i ∉ t.world.history ∧ t.world.store = s.world.store
            ∧ t.world.outputs.records = s.world.outputs.records)
        ∧ (g.needsPermission u.policy = false →
          t.world.registry = s.world.registry
            ∧ ∀ registry, (s.withRegistry registry).step g a = t.withRegistry registry)
        ∧ (g.needsKey u.policy = false → t.world.store = s.world.store)
        ∧ (u.Exempt g → .invoked i ∈ t.world.history
          ∧ Visit.HandsOn (Returned g s₀ (actions ++ [a]) i) (deliveredTo g i s₀ (actions ++ [a]))
            u.place) := by
  intro s₀ s t i u hactor hu
  have ht : t = s.step g a := run_concat g s₀ actions a
  have hstep : (s.step g a).visits[i]? = some u := ht ▸ hu
  refine ⟨?_, ?_, fun hneeds => ?_, fun hneeds => ?_,
    handsOn_run g config ttlMs (actions ++ [a]) hu⟩
  · rintro request preset now rfl hneeds hdenied
    cases about_step hactor hstep with
    | arrives _ _ _ ha hnext hafter =>
      cases ha
      obtain ⟨-, hpolicy⟩ := Visit.request_policy_arrive g s.world i request preset now
      have hnoted := Visit.denied_arrive (g := g) s.world now i request preset
      rw [← hpolicy, hafter] at hnoted
      rw [ht]
      exact hnoted hneeds hdenied
    | acts v hv ha hafter => cases ha
  · rintro (⟨name, hdenied⟩ | ⟨hneeds, hkeyless⟩)
    · obtain ⟨hrecords, hnever⟩ := unheard_of_turnedAway hactor hu (.inl ⟨name, hdenied⟩)
      exact ⟨hnever, store_of_step hactor hu (.inl ⟨name, hdenied⟩), hrecords⟩
    · obtain ⟨hrecords, hnever⟩ :=
        unheard_of_turnedAway hactor hu (turnedAway_of_keyless hu hneeds hkeyless)
      refine ⟨hnever, store_of_step hactor hu (.inr fun key hasks => ?_), hrecords⟩
      obtain ⟨refusal, hkey⟩ := Visit.keyless_iff.1 hkeyless
      exact nomatch hkey.symm.trans hasks.2
  · have hbare : ∀ v ∈ s.visits, g.needsPermission v.policy = false → v.permit = none := by
      intro v hv hexempt
      obtain ⟨j, hj⟩ := List.mem_iff_getElem?.1 hv
      exact permit_of_exempt ((accounted_run g config ttlMs actions).course j v hj) hexempt
    have hblind := step_withRegistry hbare hactor hstep hneeds
    rw [← ht] at hblind
    -- with the breakers that there are in their own place
    have hsame : s.step g a = t.withRegistry s.world.registry := hblind s.world.registry
    exact ⟨congrArg (·.world.registry) (ht.trans hsame), hblind⟩
  · exact store_of_step hactor hu (.inr fun key hasks => absurd (hasks.1.symm.trans hneeds) nofun)

/-- An order fails, and opens the breaker. -/
def orderFailed : List Action := [.arrive order none 0, .reply 0 (.error "down") 1]

/-- The order comes again and is denied; its key is still free then. -/
theorem untouched_run_orderFailed :
    let s := (start (World.start openedByOne none)).run bothGuard orderFailed
    let t :=
      (start (World.start openedByOne none)).run bothGuard (orderFailed ++ [.arrive order none 2])
    .denied 1 "default" ∈ t.world.history ∧ .invoked 1 ∉ t.world.history
      ∧ t.world.store = s.world.store
      ∧ t.world.outputs.records = s.world.outputs.records := by
  intro s t
  have hu : t.visits[1]? = some ((t.visits[1]?).get rfl) := rfl
  obtain ⟨hdenies, hbarred, -⟩ :=
    untouched_run bothGuard openedByOne none orderFailed (.arrive order none 2) 1 _ rfl hu
  have hdenied : .denied 1 "default" ∈ t.world.history :=
    hdenies order none 2 rfl (by decide) (by decide)
  exact ⟨hdenied, hbarred (.inl ⟨"default", hdenied⟩)⟩

end Gates

end Gatehouse.Pipeline
