/-
What a breaker counts.

The breaker gate stands outside the idempotency gate and counts every answer that comes through it.
Most outcomes are the handler's. The others are answers that the idempotency gate gives on its own
account: it refuses a request without a usable key, it rejects one whose key is being executed, and
it replays a record. The first two count as successes, and a replay counts as its record does. An
outcome has no further grounds (`Grounds`), and no breaker closes or opens without one.

The grounds are found by following a visit (`Backed`): as long as its call is under way nothing has
been settled, and where it stands says whether the handler has been called and has answered.
-/
import Gatehouse.Proofs.Breaker.Registry
import Gatehouse.Proofs.Pipeline.Keeping

set_option autoImplicit false

namespace Gatehouse.Pipeline

open Gatehouse.Breaker Gatehouse.Http Gatehouse.Idempotency Gatehouse.Routing Gatehouse.Traffic

/-! ## Grounds -/

/-- How an answer with a status counts. -/
def Guard.verdict (g : Guard) (status : Status) : Settlement :=
  if g.countsAsFailure status then .failure else .success

theorem Guard.settlement_answered (g : Guard) (status : Status) (headers : Headers)
    (passage : Passage) :
    g.settlement (.answered status headers passage) = g.verdict status := rfl

theorem Guard.verdict_of_not_serverError {g : Guard} {status : Status}
    (h : status.isServerError = false) :
    g.verdict status = .success := by
  rw [verdict, countsAsFailure, h, Bool.and_false]
  rfl

/-- **Grounds of an outcome** of a visit, in the events that are noted of it: the handler has been
called and has failed or answered, or the idempotency gate has answered in its place. -/
inductive Grounds (g : Guard) (i : Nat) (events : List Event) : Settlement → Prop where
  | failed (error : String) (hcalled : .invoked i ∈ events)
      (hreturned : .returned i (.error error) ∈ events) :
    Grounds g i events .failure
  | answered (status : Status) (headers : Headers) (hcalled : .invoked i ∈ events)
      (hreturned : .returned i (.ok (status, headers)) ∈ events) :
      Grounds g i events (g.verdict status)
  /-- The handler has answered, and its response could not be read to be stored. -/
  | unreadable (head : Status × Headers) (hcalled : .invoked i ∈ events)
      (hreturned : .returned i (.ok head) ∈ events) : Grounds g i events (g.verdict .badGateway)
  | refused (hnever : .invoked i ∉ events) (hrefused : .keyRefused i ∈ events) :
      Grounds g i events .success
  | rejected (key : String) (hnever : .invoked i ∉ events) (hrejected : .rejected i key ∈ events) :
    Grounds g i events .success
  | replayed (record : Record) (waited : Bool) (hnever : .invoked i ∉ events)
      (hreplayed : .replayed i record waited ∈ events) :
      Grounds g i events (g.verdict record.status)

/-- Nothing of a visit has been settled. -/
def Unsettled (i : Nat) (events : List Event) : Prop := ∀ name how, .settled i name how ∉ events

/-- **The events of a visit back its place:** they say that the handler has been called if the visit
is at it or behind it, they settle nothing as long as the call is under way, and what they settle
later has grounds among them. -/
def Backed (g : Guard) (i : Nat) (events : List Event) : Place → Prop
  | .waiting _ _ => Unsettled i events ∧ .invoked i ∉ events
  | .executing _ => Unsettled i events ∧ .invoked i ∈ events
  | .storing _ status headers _ _ =>
    Unsettled i events ∧ .invoked i ∈ events ∧ .returned i (.ok (status, headers)) ∈ events
  | _ => ∀ name how, .settled i name how ∈ events → how ≠ .release → Grounds g i events how

section

variable {g : Guard} {now i : Nat} {v : Visit} {place : Place} {told events : List Event}
  {records : List TrafficRecord}

theorem Backed.unsettled (h : Backed g i events place) (hplace : place.UnderWay) :
    Unsettled i events := by
  cases place with
  | waiting key handle => exact h.1
  | executing passage => exact h.1
  | storing key status headers passage reading => exact h.1
  | _ => exact hplace.elim

theorem Backed.grounds (h : Backed g i events place) {name : String} {how : Settlement}
    (hsettled : .settled i name how ∈ events) (hhow : how ≠ .release) : Grounds g i events how := by
  cases place with
  | answered status headers passage => exact h name how hsettled hhow
  | failed error => exact h name how hsettled hhow
  | gone => exact h name how hsettled hhow
  | _ => exact absurd hsettled (h.1 name how)

theorem backed_of_ended (hended : ¬place.UnderWay)
    (h : ∀ name how, .settled i name how ∈ events → how ≠ .release → Grounds g i events how) :
    Backed g i events place := by
  cases place with
  | answered status headers passage => exact h
  | failed error => exact h
  | gone => exact h
  | _ => exact absurd trivial hended

/-! ## Following a visit -/

theorem Unsettled.append {more : List Event} (h : Unsettled i events) (hmore : Unsettled i more) :
    Unsettled i (events ++ more) := by
  intro name how hmem
  rcases List.mem_append.1 hmem with hold | hnew
  · exact h name how hold
  · exact hmore name how hnew

/-- A settlement takes no grounds away. -/
theorem Grounds.settling {how : Settlement} (h : Grounds g v.id events how) :
    Grounds g v.id (events ++ v.settling g place) how := by
  have hkeeps : ∀ {e : Event}, e ∈ events → e ∈ events ++ v.settling g place := fun he =>
    List.mem_append_left _ he
  have hnever : .invoked v.id ∉ events →
      .invoked v.id ∉ events ++ v.settling g place := fun hold => by
    simp [hold]
  cases h with
  | failed error hcalled hreturned => exact .failed error (hkeeps hcalled) (hkeeps hreturned)
  | answered status headers hcalled hreturned =>
    exact .answered status headers (hkeeps hcalled) (hkeeps hreturned)
  | unreadable head hcalled hreturned => exact .unreadable head (hkeeps hcalled) (hkeeps hreturned)
  | refused hold hrefused => exact .refused (hnever hold) (hkeeps hrefused)
  | rejected key hold hrejected => exact .rejected key (hnever hold) (hkeeps hrejected)
  | replayed record waited hold hreplayed =>
    exact .replayed record waited (hnever hold) (hkeeps hreplayed)

/-- A call that ends is backed if there are grounds for its outcome. -/
theorem Unsettled.ends (h : Unsettled v.id events) (hended : ¬place.UnderWay)
    (hgrounds : g.settlement place ≠ .release → Grounds g v.id events (g.settlement place)) :
    Backed g v.id (events ++ v.settling g place) place := by
  refine backed_of_ended hended fun name how hmem hhow => ?_
  rcases List.mem_append.1 hmem with hold | hsettled
  · exact absurd hold (h name how)
  · -- the only settlement there is is the one that goes by the place
    obtain ⟨-, other, -, heq⟩ := Visit.mem_settling_iff.1 hsettled
    cases heq
    exact (hgrounds hhow).settling

theorem Backed.goesOn (h : Backed g v.id events place) (hplace : place.UnderWay) :
    Backed g v.id (events ++ v.settling g place) place := by
  rw [Visit.settling_of_underWay hplace, List.append_nil]
  exact h

/-- **At the idempotency gate** a visit is called, waits, or is answered with grounds. -/
theorem Visit.Passes.backed (h : Passes g now v events place) (hunsettled : Unsettled v.id told)
    (hnever : .invoked v.id ∉ told) :
    Backed g v.id ((told ++ events) ++ v.settling g place) place := by
  cases h with
  | refused headers body =>
    refine (hunsettled.append (by simp [Unsettled])).ends not_false fun _ => ?_
    rw [Guard.settlement_answered, Guard.verdict_of_not_serverError (by decide)]
    exact .refused (by simp [hnever]) (by simp)
  | called key =>
    have hquiet : Unsettled v.id
        ((key.toList.map fun key => .claimed v.id key) ++ [.invoked v.id]) := by
      simp [Unsettled]
    exact Backed.goesOn ⟨hunsettled.append hquiet, by simp⟩ trivial
  | replays record waited =>
    refine (hunsettled.append (by simp [Unsettled])).ends not_false fun _ => ?_
    exact .replayed record waited (by simp [hnever]) (by simp)
  | waits key handle =>
    rw [List.append_nil]
    exact Backed.goesOn ⟨hunsettled, hnever⟩ trivial
  | rejected key headers body =>
    refine (hunsettled.append (by simp [Unsettled])).ends not_false fun _ => ?_
    rw [Guard.settlement_answered, Guard.verdict_of_not_serverError (by decide)]
    exact .rejected key (by simp [hnever]) (by simp)

theorem settling_of_gaveBack (h : v.GaveBack) (hended : ¬v.place.UnderWay) (place : Place) :
    v.settling g place = [] := by
  unfold Visit.settling
  rw [(h hended).1, Option.toList_none, List.map_nil, ite_self]

/-- **A deed keeps a visit backed.** -/
theorem Visit.Deed.backed (h : Deed g now v events records place) (hback : v.GaveBack)
    (hv : Backed g v.id told v.place) :
    Backed g v.id ((told ++ events) ++ v.settling g place) place := by
  cases h with
  | stays =>
    rw [List.append_nil]
    by_cases hplace : v.place.UnderWay
    · exact hv.goesOn hplace
    · rw [settling_of_gaveBack hback hplace, List.append_nil]
      exact hv
  | passes key handle events place hplace hpasses =>
    rw [hplace] at hv
    exact hpasses.backed hv.1 hv.2
  | reads passage hplace =>
    rw [hplace] at hv
    rw [List.append_nil]
    exact Backed.goesOn hv trivial
  | fails passage error hplace =>
    rw [hplace] at hv
    exact (hv.1.append (by simp [Unsettled])).ends not_false fun _ =>
      .failed error (by simp [hv.2]) (by simp)
  | answers passage response hplace =>
    rw [hplace] at hv
    exact (hv.1.append (by simp [Unsettled])).ends not_false fun _ =>
      .answered response.status response.headers (by simp [hv.2]) (by simp)
  | captures key passage response hplace =>
    rw [hplace] at hv
    exact Backed.goesOn ⟨hv.1.append (by simp [Unsettled]), by simp [hv.2], by simp⟩ trivial
  | absorbs key status headers passage reading next hplace =>
    rw [hplace] at hv
    rw [List.append_nil]
    exact Backed.goesOn hv trivial
  | captureFails key status headers passage reading error answerHeaders body hplace hfailed =>
    rw [hplace] at hv
    obtain ⟨hunsettled, hcalled, hreturned⟩ := hv
    exact (hunsettled.append (by simp [Unsettled])).ends not_false fun _ =>
      .unreadable (status, headers) (by simp [hcalled]) (by simp [hreturned])
  | stores key status headers passage reading record hplace hended hstatus =>
    rw [hplace] at hv
    obtain ⟨hunsettled, hcalled, hreturned⟩ := hv
    subst hstatus
    exact (hunsettled.append (by simp [Unsettled])).ends not_false fun _ =>
      .answered record.status headers (by simp [hcalled]) (by simp [hreturned])
  | delivers status headers passage hplace =>
    have hended : ¬v.place.UnderWay := by rw [hplace]; exact not_false
    rw [hplace] at hv
    rw [settling_of_gaveBack hback hended, List.append_nil, List.append_nil]
    exact hv
  | leaves =>
    by_cases hplace : v.place.UnderWay
    · -- a call that is dropped has no outcome
      have hunsettled : Unsettled v.id (told ++ v.unclaiming) :=
        (hv.unsettled hplace).append (by simp [Unsettled])
      exact hunsettled.ends not_false fun houtcome => absurd rfl houtcome
    · -- a visit that was over already has nothing left to give back
      have hunclaiming : v.unclaiming = [] := by rw [Visit.unclaiming, (hback hplace).2]; rfl
      rw [settling_of_gaveBack hback hplace, hunclaiming, List.append_nil, List.append_nil]
      exact backed_of_ended not_false fun name how hmem hhow => hv.grounds hmem hhow

theorem kept_backed (g : Guard) : Visit.Kept g fun v events _ => Backed g v.id events v.place where
  denied := by
    intro u name headers body hplace
    rw [hplace]
    intro other how hmem
    cases List.mem_singleton.1 hmem
  enters := by
    intro now v u events hid hrequest hpasses
    rw [hid, ← List.append_assoc]
    exact hpasses.backed (by simp [Unsettled]) (by simp)
  does := by
    intro now v u told events records added hback hv hid hrequest hdeed
    rw [hid, ← List.append_assoc]
    exact hdeed.backed hback hv

end

/-! ## Closing and opening -/

/-- An operation settles a permission in one way only. -/
theorem Settlement.operation_injective : Function.Injective Settlement.operation := by
  intro how other heq
  cases how <;> cases other <;> first | rfl | cases heq

theorem Settlement.ne_release_of_operation {how : Settlement}
    (h : how.operation = .succeed ∨ how.operation = .fail) : how ≠ .release := by
  rintro rfl
  rcases h with hsucceed | hfail
  · cases hsucceed
  · cases hfail

namespace World

/-- A breaker closes between two worlds, or ceases to be closed. -/
def Turns (w after : World) (name : String) : Prop :=
  ¬((w.registry.breakerOf name).state = .closed ↔ (after.registry.breakerOf name).state = .closed)

/-- **An outcome is counted** between two worlds, and it is a success if the breaker
is closed then. -/
structure Counts (w after : World) (name : String) (i : Nat) (how : Settlement) : Prop where
  noted : ∃ more, after.history = w.history ++ more ∧ .settled i name how ∈ more
  outcome : how ≠ .release
  closing : (after.registry.breakerOf name).state = .closed → how = .success

variable {g : Guard} {now number : Nat} {w before after : World} {v u : Visit} {name : String}

theorem not_turns_of_registry (h : after.registry = w.registry) : ¬w.Turns after name := by
  rw [Turns, h, not_not]

/-- A request that asks for a permission neither closes nor opens a closed breaker. -/
theorem not_turns_of_acquire {other : String}
    (h : after.registry = (w.registry.perform other now .acquire).2.1) : ¬w.Turns after name := by
  intro hturns
  rw [Turns, h] at hturns
  obtain ⟨-, hsucceed | ⟨hfail, -⟩⟩ := Registry.operation_of_closed _ _ _ _ hturns
  · cases hsucceed
  · cases hfail

theorem Turns.of_left (h : w.Turns after name) (hbefore : ¬w.Turns before name) :
    before.Turns after name := by
  unfold Turns at h hbefore ⊢
  rw [not_not] at hbefore
  rwa [hbefore] at h

/-- **A call that goes on or ends** turns a breaker only by an outcome. -/
theorem counts_of_carries (h : Visit.Carries g now w v after u) (hturns : w.Turns after name) :
    ∃ how, w.Counts after name v.id how := by
  cases h with
  | goesOn haside => exact absurd hturns (not_turns_of_registry haside.registry)
  | ends before haside hsettles =>
    -- what a call does before it settles leaves every breaker alone
    obtain ⟨more, hhistory, -⟩ := haside.history
    have hlater := hturns.of_left (not_turns_of_registry haside.registry)
    generalize v.permit = permit at hsettles
    cases hsettles with
    | nothing hregistry => exact absurd hlater (not_turns_of_registry hregistry)
    | permission other hregistry hsettled =>
      rw [Turns, hregistry] at hlater
      obtain ⟨rfl, hoperation⟩ := Registry.operation_of_closed _ _ _ _ hlater
      rw [← hregistry] at hoperation
      refine ⟨g.settlement u.place,
        ⟨more ++ [.settled v.id other (g.settlement u.place)], ?_, by simp⟩, ?_, ?_⟩
      · rw [hsettled, hhistory, List.append_assoc]
      · exact Settlement.ne_release_of_operation (hoperation.imp_right And.left)
      · intro hclosed
        rcases hoperation with hsucceed | ⟨-, hopen⟩
        · exact Settlement.operation_injective hsucceed
        · exact absurd hclosed hopen

theorem Counts.of_left {i : Nat} {how : Settlement} (h : before.Counts after name i how)
    {more : List Event} (hbefore : before.history = w.history ++ more) :
    w.Counts after name i how := by
  obtain ⟨later, hlater, hsettled⟩ := h.noted
  refine ⟨⟨more ++ later, ?_, List.mem_append_right more hsettled⟩, h.outcome, h.closing⟩
  rw [hlater, hbefore, List.append_assoc]

end World

namespace Gates

/-- **A step turns a breaker** only by an outcome. -/
theorem GateStep.counts {g : Guard} {s t : Gates} (h : GateStep g s t) {name : String}
    (hturns : s.world.Turns t.world name) : ∃ i how, s.world.Counts t.world name i how := by
  cases h with
  | idle after hregistry => exact absurd hturns (World.not_turns_of_registry hregistry)
  | turns i now v u after hv hid hpolicy hturn =>
    cases hturn with
    | carries hplace hcarries =>
      obtain ⟨how, hcounts⟩ := World.counts_of_carries hcarries hturns
      exact ⟨v.id, how, hcounts⟩
    | rests hplace hregistry => exact absurd hturns (World.not_turns_of_registry hregistry)
  | arrives now u after harrives =>
    cases harrives with
    | exempt v hnumber hneeds hpermit hid hpolicy hcarries =>
      obtain ⟨how, hcounts⟩ := World.counts_of_carries hcarries hturns
      exact ⟨v.id, how, hcounts⟩
    | granted v asked hnumber hneeds hpermit hgranted hregistry hhistory hid hpolicy hcarries =>
      have hlater := hturns.of_left (World.not_turns_of_acquire hregistry)
      obtain ⟨how, hcounts⟩ := World.counts_of_carries hcarries hlater
      exact ⟨v.id, how, hcounts.of_left hhistory⟩
    | denied hnumber hneeds hpermit hdenied hregistry =>
      exact absurd hturns (World.not_turns_of_acquire hregistry)

/-! ## Runs -/

/-- Every outcome that is noted on a run has grounds. -/
theorem grounds_run (g : Guard) (config : BreakerConfig) (ttlMs : Option Nat)
    (actions : List Action) {i : Nat} {name : String} {how : Settlement}
    (hsettled : .settled i name how
      ∈ ((start (World.start config ttlMs)).run g actions).world.history)
    (hhow : how ≠ .release) :
    Grounds g i (((start (World.start config ttlMs)).run g actions).world.eventsOf i) how := by
  have hnoted : .settled i name how
      ∈ ((start (World.start config ttlMs)).run g actions).world.eventsOf i :=
    (World.mem_eventsOf_iff rfl).2 hsettled
  cases hv : ((start (World.start config ttlMs)).run g actions).visits[i]? with
  | none =>
    -- nothing is noted of a number that nobody has
    have hnone :=
      ((accounted_run g config ttlMs actions).unborn i (List.getElem?_eq_none_iff.1 hv)).2
    rw [hnone] at hnoted
    exact absurd hnoted List.not_mem_nil
  | some v =>
    have hbacked := kept_run (kept_backed g) config ttlMs actions i v hv
    rw [(owned_run g config ttlMs actions).id i v hv] at hbacked
    exact hbacked.grounds hnoted hhow

/-- **A breaker counts answers.** On every run, each outcome that is settled with a breaker has its
grounds in what has happened to that request: its handler was called, and failed or answered; or its
handler was never called, and the idempotency gate refused it for want of a key or rejected it,
which is a success, or replayed a record, which counts as the status of the record does. And a step
closes a breaker only by a success, and ends its being closed only by an outcome, which it notes and
which has such grounds. -/
theorem outcomes_run (g : Guard) (config : BreakerConfig) (ttlMs : Option Nat)
    (actions : List Action) :
    let s := (start (World.start config ttlMs)).run g actions
    (∀ i name how, .settled i name how ∈ s.world.history → how ≠ .release →
        Grounds g i (s.world.eventsOf i) how)
      ∧ ∀ a name, s.world.Turns (s.step g a).world name →
          ∃ i how, s.world.Counts (s.step g a).world name i how
            ∧ Grounds g i ((s.step g a).world.eventsOf i) how := by
  intro s
  refine ⟨fun i name how hsettled hhow => grounds_run g config ttlMs actions hsettled hhow,
    fun a name hturns => ?_⟩
  -- the step notes the outcome that turned the breaker, and the run with the step has
  -- grounds for it
  have hback := (accounted_run g config ttlMs actions).gaveBack (owned_run g config ttlMs actions)
  obtain ⟨i, how, hcounts⟩ := (step_gate s a hback).counts hturns
  obtain ⟨more, hhistory, hsettled⟩ := hcounts.noted
  refine ⟨i, how, hcounts, ?_⟩
  have hmem : .settled i name how ∈ (s.step g a).world.history := by
    rw [hhistory]
    exact List.mem_append_right _ hsettled
  rw [← run_concat] at hmem ⊢
  exact grounds_run g config ttlMs (actions ++ [a]) hmem hcounts.outcome

/-- Gates with the breaker layer and the idempotency layer, where every request needs a
permission and a key. -/
def bothGuard : Guard :=
  { idempotentGuard with
    layers := { breaker := true, idempotency := true, recording := false }
    rules := { rules := [], defaultPolicy := RoutePolicy.fresh.modify [.idempotent] } }

/-- One failure opens a breaker, which does not wait then, and one trial closes it. -/
def trialByOne : BreakerConfig :=
  { openedByOne with
    defaults :=
      { openedByOne.defaults with waitDurationMs := 0, permittedCallsInHalfOpenState := 1 } }

/-- An order with another key. -/
def otherOrder : Request :=
  { order with headers := Headers.empty.append ⟨"x-idempotency-key"⟩ (Bytes.ofString "l") }

/-- An order is executed, another one fails, which opens the breaker, and the first comes again. -/
def orderedAgain : List Action :=
  [.arrive order none 0,
    .reply 0 (.ok { status := ⟨201⟩, headers := Headers.empty, body := Body.ofBytes [111, 107] }) 1,
    .absorb 0 2, .absorb 0 3, .arrive otherOrder none 4, .reply 1 (.error "down") 5,
    .arrive order none 6]

theorem eventsOf_orderedAgain :
    ∃ record, ((start (World.start trialByOne none)).run bothGuard orderedAgain).world.eventsOf 2
      = [.granted 2 "default", .replayed 2 record false, .settled 2 "default" .success] :=
  ⟨_, rfl⟩

theorem settled_orderedAgain :
    .settled 2 "default" .success
      ∈ ((start (World.start trialByOne none)).run bothGuard orderedAgain).world.history := by
  obtain ⟨record, hevents⟩ := eventsOf_orderedAgain
  rw [← World.mem_eventsOf_iff (i := 2) rfl, hevents]
  simp

/-- The success that closes the breaker is that of the request that comes again. -/
theorem outcomes_run_orderedAgain :
    let s := (start (World.start trialByOne none)).run bothGuard (orderedAgain.take 6)
    let t := (start (World.start trialByOne none)).run bothGuard orderedAgain
    .settled 2 "default" .success ∈ t.world.history
      ∧ Grounds bothGuard 2 (t.world.eventsOf 2) .success
      ∧ s.world.Turns (s.step bothGuard (.arrive order none 6)).world "default"
      ∧ ∃ i how,
        s.world.Counts (s.step bothGuard (.arrive order none 6)).world "default" i how := by
  intro s t
  obtain ⟨hgrounds, -⟩ := outcomes_run bothGuard trialByOne none orderedAgain
  obtain ⟨-, hcounts⟩ := outcomes_run bothGuard trialByOne none (orderedAgain.take 6)
  have hturns : s.world.Turns (s.step bothGuard (.arrive order none 6)).world "default" := by
    unfold World.Turns
    decide
  obtain ⟨i, how, hcounted, -⟩ := hcounts (.arrive order none 6) "default" hturns
  exact ⟨settled_orderedAgain, hgrounds 2 "default" .success settled_orderedAgain nofun, hturns, i,
    how, hcounted⟩

/-- **A replay closes a breaker:** of the last request the handler never hears, its outcome is
counted all the same, and the breaker, which was open, is closed by it. -/
theorem replay_closes_breaker :
    let s := (start (World.start trialByOne none)).run bothGuard (orderedAgain.take 6)
    let t := (start (World.start trialByOne none)).run bothGuard orderedAgain
    ¬(∀ i name how, .settled i name how ∈ t.world.history → how ≠ .release →
      .invoked i ∈ t.world.history)
      ∧ (s.world.registry.breakerOf "default").state = .opened
      ∧ (t.world.registry.breakerOf "default").state = .closed
      ∧ t.world.calls = s.world.calls := by
  intro s t
  refine ⟨fun hall => ?_, by decide, by decide, by decide⟩
  have hcalled := hall 2 "default" .success settled_orderedAgain nofun
  obtain ⟨record, hevents⟩ := eventsOf_orderedAgain
  rw [← World.mem_eventsOf_iff (i := 2) rfl, hevents] at hcalled
  simp at hcalled

end Gates

end Gatehouse.Pipeline
