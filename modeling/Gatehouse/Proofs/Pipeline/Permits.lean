/-
What becomes of a permission.

The breaker gate asks a breaker once, when a request comes, and settles what it was given once, when
the inner call is over; what happens in between is none of its business. For the gate, then, a step
of a visit under way is one of two: the visit goes on with the permission that it has, or it ends
and the permission is settled by the place that it ends in. This is `Carries`, and each function of
a visit is taken apart once to see it. A visit that is over does nothing any more that the gate
could see. `step_gate` puts the steps of the gates together from this; the invariants about
permissions look at nothing else.
-/
import Gatehouse.Proofs.Pipeline.Moves
import Gatehouse.Proofs.Pipeline.Effects

set_option autoImplicit false

namespace Gatehouse.Pipeline

open Gatehouse.Breaker Gatehouse.Http Gatehouse.Idempotency Gatehouse.Routing Gatehouse.Traffic

/-! ## Events of the breaker gate -/

/-- The visit that an event belongs to. -/
def Event.visit : Event → Nat
  | .denied i _ => i
  | .granted i _ => i
  | .settled i _ _ => i
  | .claimed i _ => i
  | .unclaimed i _ => i
  | .stored i _ => i
  | .invoked i => i
  | .returned i _ => i
  | .keyRefused i => i
  | .rejected i _ => i
  | .replayed i _ _ => i

/-- Whether an event is one of the breaker gate. -/
def Event.isGate : Event → Bool
  | .denied _ _ => true
  | .granted _ _ => true
  | .settled _ _ _ => true
  | _ => false

/-- **How a call is settled** that ends in a place: a failure of the inner service is a failure,
and so is an answer that counts as one; any other answer is a success. A call that ends otherwise
has no outcome. -/
def Guard.settlement (g : Guard) : Place → Settlement
  | .answered status _ _ => if g.countsAsFailure status then .failure else .success
  | .failed _ => .failure
  | _ => .release

namespace World

/-- **Aside from the gate:** no breaker is used, and what is noted belongs to one visit and is
not of the gate. -/
structure Aside (i : Nat) (w after : World) : Prop where
  registry : after.registry = w.registry
  history : ∃ more, after.history = w.history ++ more ∧ ∀ e ∈ more, e.visit = i ∧ e.isGate = false

/-- A permission, if there is one, is settled with its breaker, and that is noted; nothing
happens otherwise. -/
inductive Settles (i : Nat) (how : Settlement) (now : Nat) (w after : World) :
    Option String → Prop where
  | nothing (hregistry : after.registry = w.registry) (hhistory : after.history = w.history) :
    Settles i how now w after none
  | permission (name : String)
      (hregistry : after.registry = (w.registry.perform name now how.operation).2.1)
      (hhistory : after.history = w.history ++ [.settled i name how]) :
    Settles i how now w after (some name)

section

variable {i : Nat} {w after : World}

theorem Aside.refl (i : Nat) (w : World) : Aside i w w :=
  ⟨rfl, [], (List.append_nil _).symm, fun _ he => absurd he List.not_mem_nil⟩

/-- Diagnostics, counters, emissions and the store are aside from the gate. -/
theorem Aside.tell (h : Aside i w after) (d : Diagnostic) : Aside i w (after.tell d) :=
  ⟨h.registry, h.history⟩

theorem Aside.count (h : Aside i w after) (c : Counter) : Aside i w (after.count c) :=
  ⟨h.registry, h.history⟩

theorem Aside.emit (h : Aside i w after) (e : Emission) : Aside i w (after.emit e) :=
  ⟨h.registry, h.history⟩

theorem Aside.withStore (h : Aside i w after) (store : Store) : Aside i w { after with store } :=
  ⟨h.registry, h.history⟩

/-- What the gate has no interest in may be noted, if it is about the visit. -/
theorem Aside.note (h : Aside i w after) {e : Event} (hvisit : e.visit = i)
    (hgate : e.isGate = false) :
    Aside i w (after.note e) := by
  obtain ⟨more, hhistory, hmore⟩ := h.history
  refine ⟨h.registry, more ++ [e], ?_, fun other hother => ?_⟩
  · change after.history ++ [e] = _
    rw [hhistory, List.append_assoc]
  · rcases List.mem_append.1 hother with hold | hnew
    · exact hmore other hold
    · rw [List.mem_singleton.1 hnew]
      exact ⟨hvisit, hgate⟩

/-- Giving up a claim is aside from the gate. -/
theorem Aside.unclaim (h : Aside i w after) (key : String) : Aside i w (after.unclaim i key) := by
  have htold := (h.tell (.claimReleased key)).withStore (after.store.release key)
  exact htold.note rfl rfl

/-- So is storing a record. -/
theorem Aside.storeRecord (h : Aside i w after) (record : Record) (now : Nat) :
    Aside i w (after.storeRecord i record now) := by
  have hstored := (h.withStore (after.store.complete record now)).tell
    (.responseStored record.key record.status)
  exact (hstored.count (.idempotencyEvents .executed)).note rfl rfl

/-- A permission that is settled by an outcome is told to the breaker that gave it. -/
theorem settles_settle (i : Nat) (w : World) (name : String) (failed : Bool) (elapsedMs now : Nat) :
    Settles i (if failed then .failure else .success) now w (w.settle i name failed elapsedMs now)
      (some name) := by
  cases failed with
  | true => exact .permission name rfl rfl
  | false => exact .permission name rfl rfl

/-- A permission that is handed back is told to that breaker as well. -/
theorem settles_handBack (i : Nat) (w : World) (name : String) (now : Nat) :
    Settles i .release now w (w.handBack i name now) (some name) :=
  .permission name rfl rfl

end

end World

namespace Visit

/-! ## A visit and its permission -/

/-- **A step carries a permission:** the visit goes on with it, or it ends and the permission is
settled by the place it ends in. -/
inductive Carries (g : Guard) (now : Nat) (w : World) (v : Visit) (after : World)
    (u : Visit) : Prop where
  | goesOn (haside : w.Aside v.id after) (hpermit : u.permit = v.permit) (hplace : u.place.UnderWay)
  | ends (before : World) (haside : w.Aside v.id before)
      (hsettles : before.Settles v.id (g.settlement u.place) now after v.permit)
      (hpermit : u.permit = none) (hplace : ¬u.place.UnderWay)

/-- **A turn of a visit** as the gate sees it. -/
inductive Turn (g : Guard) (now : Nat) (w : World) (v : Visit) (after : World)
    (u : Visit) : Prop where
  | carries (hplace : v.place.UnderWay) (hcarries : Carries g now w v after u)
  /-- The visit is over, and nothing is noted. -/
  | rests (hplace : ¬v.place.UnderWay) (hregistry : after.registry = w.registry)
      (hhistory : after.history = w.history) (hpermit : u.permit = none)
      (hafter : ¬u.place.UnderWay)

/-- **A visit comes** to the breaker gate, with a number: it needs no permission, is given the one
that it needs, or is not given it. -/
inductive Arrives (g : Guard) (now : Nat) (w : World) (number : Nat) (after : World)
    (u : Visit) : Prop where
  | exempt (v : Visit) (hnumber : v.id = number) (hneeds : g.needsPermission v.policy = false)
      (hpermit : v.permit = none) (hid : u.id = v.id) (hpolicy : u.policy = v.policy)
      (hcarries : Carries g now w v after u)
  | granted (v : Visit) (asked : World) (hnumber : v.id = number)
      (hneeds : g.needsPermission v.policy = true) (hpermit : v.permit = some v.policy.breakerName)
      (hgranted : (w.registry.perform v.policy.breakerName now .acquire).1 = true)
      (hregistry : asked.registry = (w.registry.perform v.policy.breakerName now .acquire).2.1)
      (hhistory : asked.history = w.history ++ [.granted v.id v.policy.breakerName])
      (hid : u.id = v.id) (hpolicy : u.policy = v.policy) (hcarries : Carries g now asked v after u)
  | denied (hnumber : u.id = number) (hneeds : g.needsPermission u.policy = true)
      (hpermit : u.permit = none)
      (hdenied : (w.registry.perform u.policy.breakerName now .acquire).1 = false)
      (hregistry : after.registry = (w.registry.perform u.policy.breakerName now .acquire).2.1)
      (hhistory : after.history = w.history ++ [.denied u.id u.policy.breakerName])
      (hplace : ¬u.place.UnderWay)

/-- A visit that is over has given back what it had. -/
def GaveBack (v : Visit) : Prop := ¬v.place.UnderWay → v.permit = none ∧ v.claim = none

section

variable {g : Guard} {w before : World} {v u : Visit} (now : Nat)

/-- A visit that gives up its claim leaves the gate alone. -/
theorem aside_unclaim (h : w.Aside v.id before) : w.Aside v.id (v.unclaim before).1 := by
  unfold unclaim
  cases v.claim with
  | none => exact h
  | some key => exact h.unclaim key

theorem settles_settle (w : World) (v : Visit) (failed : Bool) :
    w.Settles v.id (if failed then .failure else .success) now (v.settle w failed now).1
      v.permit := by
  unfold settle
  cases v.permit with
  | none => exact .nothing rfl rfl
  | some name => exact World.settles_settle v.id w name failed (now - v.arrivedAt) now

theorem settles_handBack (w : World) (v : Visit) :
    w.Settles v.id .release now (v.handBack w now).1 v.permit := by
  unfold handBack
  cases v.permit with
  | none => exact .nothing rfl rfl
  | some name => exact World.settles_handBack v.id w name now

/-! ### The inner call -/

/-- An answer ends a visit whatever came before it. -/
theorem carries_answer (h : w.Aside v.id before) (hid : u.id = v.id) (hpermit : u.permit = v.permit)
    (status : Status) (headers : Headers) (passage : Passage) :
    Carries g now w v (u.answer g before status headers passage now).1
      (u.answer g before status headers passage now).2 := by
  have hsettles := settles_settle now before u (g.countsAsFailure status)
  rw [hid, hpermit] at hsettles
  obtain ⟨-, hvisit⟩ := answer_eq g now before u status headers passage
  refine .ends before h ?_ (by rw [hvisit]) (by rw [hvisit]; exact not_false)
  rw [hvisit]
  exact hsettles

/-- A visit that is rejected ends, and its permission is settled by the answer that it gets. -/
theorem carries_reject (h : w.Aside v.id before) (key : String) :
    Carries g now w v (v.reject g before key now).1 (v.reject g before key now).2 := by
  have hnoted := ((h.tell (.keyInProgress key)).count (.idempotencyEvents .rejected)).note
    (e := .rejected v.id key) rfl rfl
  exact carries_answer now hnoted rfl rfl _ _ _

theorem carries_execute (h : w.Aside v.id before) (hid : u.id = v.id)
    (hpermit : u.permit = v.permit) :
    Carries g now w v (u.execute g before now).1 (u.execute g before now).2 :=
  .goesOn (h.note hid rfl) hpermit trivial

/-- A claim attempt lets a visit go on, or ends it with a record or a rejection. -/
theorem carries_claimKey (h : w.Aside v.id before) (key : String) :
    Carries g now w v (v.claimKey g before key now).1 (v.claimKey g before key now).2 := by
  unfold claimKey
  rcases before.store.claim key now with ⟨result, store⟩
  have hstore := h.withStore store
  cases result with
  | replay record =>
    have hnoted := ((hstore.tell (.replaying key)).count (.idempotencyEvents .replayed)).note
      (e := .replayed v.id record false) rfl rfl
    exact carries_answer now hnoted rfl rfl _ _ _
  | pending handle =>
    cases hpolicy : g.inFlight with
    | reject => exact carries_reject now hstore key
    | wait => exact .goesOn hstore rfl trivial
  | acquired => exact carries_execute now (hstore.note (e := .claimed v.id key) rfl rfl) rfl rfl

/-- **Behind the breaker gate** a visit carries its permission through the idempotency gate,
whatever that decides. -/
theorem carries_enter (w : World) (v : Visit) :
    Carries g now w v (v.enter g w now).1 (v.enter g w now).2 := by
  have hstart := World.Aside.refl v.id w
  unfold enter
  by_cases hneeds : g.needsKey v.policy = true
  · rw [if_pos hneeds]
    cases hkey : key? g v.request with
    | ok key => exact carries_claimKey now hstart key
    | error refusal =>
      have hnoted :=
        ((hstart.tell (.keyRefused v.request.uri.path g.keyHeader.text refusal.message)).count
          (.idempotencyEvents (refusalEvent refusal))).note (e := .keyRefused v.id) rfl rfl
      exact carries_answer now hnoted rfl rfl _ _ _
  · rw [if_neg hneeds]
    exact carries_execute now hstart rfl rfl

/-- **A visit that comes** asks for a permission once, if it needs one, and carries what it gets. -/
theorem arrives_arrive (w : World) (number : Nat) (request : Request)
    (preset : Option RoutePolicy) :
    Arrives g now w number (arrive g w number request preset now).1
      (arrive g w number request preset now).2 := by
  unfold arrive
  generalize g.policyFor preset request = policy
  let v : Visit :=
    { id := number, request, arrivedAt := now, policy, permit := none, claim := none,
      place := .gone }
  by_cases hneeds : g.needsPermission policy = true
  case neg =>
    have hexempt : g.needsPermission policy = false := by simpa using hneeds
    simp only [hneeds]
    have hmoved := moved_enter g now none w v ⟨rfl, rfl⟩
    exact .exempt v rfl hexempt rfl hmoved.id hmoved.policy (carries_enter now w v)
  case pos =>
    simp only [hneeds, if_true]
    have hregistry : (w.breaker policy.breakerName now .acquire).2.registry
        = (w.registry.perform policy.breakerName now .acquire).2.1 := rfl
    have hhistory : (w.breaker policy.breakerName now .acquire).2.history = w.history := rfl
    have hanswer : (w.breaker policy.breakerName now .acquire).1
        = (w.registry.perform policy.breakerName now .acquire).1 := rfl
    rcases hperform : w.breaker policy.breakerName now .acquire with ⟨granted, asked⟩
    rw [hperform] at hregistry hhistory hanswer
    cases granted with
    | true =>
      let holder : Visit := { v with permit := some policy.breakerName }
      let noted := asked.note (.granted number policy.breakerName)
      have hnoted : noted.history = w.history ++ [.granted number policy.breakerName] :=
        congrArg (· ++ [Event.granted number policy.breakerName]) hhistory
      have hmoved := moved_enter g now none noted holder ⟨rfl, rfl⟩
      exact .granted holder noted rfl hneeds rfl hanswer.symm hregistry hnoted
        hmoved.id hmoved.policy
        (carries_enter now noted holder)
    | false =>
      -- the visit has no permission, so its answer settles none
      have hnoted : asked.history ++ [.denied number policy.breakerName]
          = w.history ++ [.denied number policy.breakerName] :=
        congrArg (· ++ [Event.denied number policy.breakerName]) hhistory
      exact .denied rfl hneeds rfl hanswer.symm hregistry hnoted not_false

/-! ### Turns -/

/-- A visit to which nothing happens has had its turn, be it under way or over. -/
theorem Turn.stays (h : v.GaveBack) : Turn g now w v w v := by
  by_cases hplace : v.place.UnderWay
  · exact .carries hplace (.goesOn (.refl v.id w) rfl hplace)
  · exact .rests hplace rfl rfl (h hplace).1 hplace

/-- A visit that waits takes its turn through the idempotency gate. -/
theorem turn_resume (w : World) (h : v.GaveBack) (timedOut : Bool) :
    Turn g now w v (v.resume g w timedOut now).1 (v.resume g w timedOut now).2 := by
  unfold resume
  cases hplace : v.place with
  | waiting key handle =>
    have hunderWay : v.place.UnderWay := by rw [hplace]; trivial
    have hstart := World.Aside.refl v.id w
    dsimp only
    rcases w.store.ending? handle with _ | ⟨record⟩ | _
    · cases timedOut with
      | true => exact .carries hunderWay (carries_reject now hstart key)
      | false => exact .stays now h
    · have hnoted :=
        ((hstart.tell (.replayingAfterWait key)).count (.idempotencyEvents .waited)).note
          (e := .replayed v.id record true) rfl rfl
      exact .carries hunderWay (carries_answer now hnoted rfl rfl _ _ _)
    · exact .carries hunderWay (carries_claimKey now hstart key)
  | _ => exact .stays now h

theorem turn_readRequest (w : World) (h : v.GaveBack) : Turn g now w v w v.readRequest.2 := by
  unfold readRequest
  cases hplace : v.place with
  | executing passage =>
    have hunderWay : v.place.UnderWay := by rw [hplace]; trivial
    exact .carries hunderWay (.goesOn (.refl v.id w) rfl trivial)
  | _ => exact .stays now h

/-- The end of the inner call settles the permission, unless the response is to be stored first. -/
theorem turn_reply (w : World) (h : v.GaveBack) (result : Except String Response) :
    Turn g now w v (v.reply g w result now).1 (v.reply g w result now).2 := by
  unfold reply
  cases hplace : v.place with
  | executing passage =>
    have hunderWay : v.place.UnderWay := by rw [hplace]; trivial
    have hstart := World.Aside.refl v.id w
    refine .carries hunderWay ?_
    cases result with
    | error error =>
      let noted := (w.note (.returned v.id (.error error))).emit (passage.failed g.recorder error)
      have hnoted : w.Aside v.id noted := (hstart.note rfl rfl).emit _
      obtain ⟨-, hunclaimed⟩ := unclaim_eq noted v
      obtain ⟨-, hvisit⟩ := unclaim_settle_eq now noted v true
      have hsettles := settles_settle now (v.unclaim noted).1 (v.unclaim noted).2 true
      rw [hunclaimed] at hsettles
      refine .ends (v.unclaim noted).1 (aside_unclaim hnoted) ?_ ?_ not_false
      · change (v.unclaim noted).1.Settles v.id .failure now
          ((v.unclaim noted).2.settle (v.unclaim noted).1 true now).1 v.permit
        rw [hunclaimed]
        exact hsettles
      · change ((v.unclaim noted).2.settle (v.unclaim noted).1 true now).2.permit = none
        rw [hvisit]
    | ok response =>
      have hnoted :=
        hstart.note (e := .returned v.id (.ok (response.status, response.headers))) rfl rfl
      cases hclaim : v.claim with
      | none => exact carries_answer now hnoted rfl rfl _ _ _
      | some key => exact .goesOn hnoted rfl trivial
  | _ => exact .stays now h

/-- The end of a response that is to be stored settles it then. -/
theorem turn_absorb (w : World) (h : v.GaveBack) :
    Turn g now w v (v.absorb g w now).1 (v.absorb g w now).2 := by
  unfold absorb
  cases hplace : v.place with
  | storing key status headers passage reading =>
    have hunderWay : v.place.UnderWay := by rw [hplace]; trivial
    dsimp only
    refine .carries hunderWay ?_
    rcases passage.pollResponse g.recorder now with ⟨result, emission, next⟩
    have hemitted := (World.Aside.refl v.id w).emit emission
    cases result with
    | failure error =>
      let told := (w.emit emission).tell (.captureFailed key (Refusal.captureFailed error).message)
      obtain ⟨-, hvisit⟩ := unclaim_eq told v
      have haside : w.Aside v.id (v.unclaim told).1 := aside_unclaim (hemitted.tell _)
      exact carries_answer now haside (by rw [hvisit]) (by rw [hvisit]) _ _ _
    | ended =>
      exact carries_answer
        (u := { v with claim := none, place := .storing key status headers passage reading })
        now (hemitted.storeRecord _ now) rfl rfl _ _ _
    | frame frame => exact .goesOn hemitted rfl trivial
    | pending => exact .goesOn hemitted rfl trivial
  | _ => exact .stays now h

theorem turn_deliver (w : World) (h : v.GaveBack) :
    Turn g now w v (v.deliver g w now).2.1 (v.deliver g w now).2.2 := by
  unfold deliver
  cases hplace : v.place with
  | answered status headers passage =>
    have hended : ¬v.place.UnderWay := by rw [hplace]; exact not_false
    exact .rests hended rfl rfl (h hended).1 not_false
  | _ => exact .stays now h

/-- A visit that is dropped hands back its permission, or had none any more. -/
theorem turn_leave (w : World) (h : v.GaveBack) :
    Turn g now w v (v.leave g w now).1 (v.leave g w now).2 := by
  let emitted := w.emit (v.droppedEmission g now)
  have hemitted : w.Aside v.id emitted := (World.Aside.refl v.id w).emit _
  obtain ⟨-, hunclaimed⟩ := unclaim_eq emitted v
  obtain ⟨-, hvisit⟩ := unclaim_handBack_eq now emitted v
  change Turn g now w v ((v.unclaim emitted).2.handBack (v.unclaim emitted).1 now).1
    { ((v.unclaim emitted).2.handBack (v.unclaim emitted).1 now).2 with place := .gone }
  by_cases hplace : v.place.UnderWay
  · have hback := settles_handBack now (v.unclaim emitted).1 (v.unclaim emitted).2
    rw [hunclaimed] at hback ⊢
    exact .carries hplace (.ends (v.unclaim emitted).1 (aside_unclaim hemitted) hback
      (by rw [← hunclaimed, hvisit]) not_false)
  · -- a visit that is over has nothing to give back
    obtain ⟨hpermit, hclaim⟩ := h hplace
    have hunclaim : v.unclaim emitted = (emitted, v) := by rw [unclaim, hclaim]
    have hback : v.handBack emitted now = (emitted, v) := by rw [handBack, hpermit]
    rw [hunclaim, hback]
    exact .rests hplace rfl rfl hpermit not_false

end

end Visit

/-! ## Steps of the gates -/

namespace Gates

/-- **Steps of the breaker gate:** what an action is to it. -/
inductive GateStep (g : Guard) (s : Gates) : Gates → Prop where
  | idle (after : World) (hregistry : after.registry = s.world.registry)
      (hhistory : after.history = s.world.history) :
    GateStep g s { world := after, visits := s.visits }
  | turns (i now : Nat) (v u : Visit) (after : World) (hv : s.visits[i]? = some v)
      (hid : u.id = v.id) (hpolicy : u.policy = v.policy)
      (hturn : Visit.Turn g now s.world v after u) :
    GateStep g s { world := after, visits := s.visits.set i u }
  | arrives (now : Nat) (u : Visit) (after : World)
      (harrives : Visit.Arrives g now s.world s.visits.length after u) :
    GateStep g s { world := after, visits := s.visits ++ [u] }

variable {g : Guard}

/-- A step of one visit is a step of the gates, if it is a turn as the gate sees it and a move as
the ledger does. -/
theorem gateStep_onVisit (s : Gates) (i now : Nat) (f : World → Visit → World × Visit)
    (hback : ∀ v ∈ s.visits, v.GaveBack)
    (hturn : ∀ v, v.GaveBack → Visit.Turn g now s.world v (f s.world v).1 (f s.world v).2)
    (hmoved : ∀ v, ∃ given,
      Visit.Moved g now given s.world.ledger v (f s.world v).1.ledger (f s.world v).2) :
    GateStep g s (s.onVisit i f) := by
  unfold onVisit
  cases hv : s.visits[i]? with
  | none => exact .idle s.world rfl rfl
  | some v =>
    obtain ⟨given, h⟩ := hmoved v
    exact .turns i now v _ _ hv h.id h.policy (hturn v (hback v (List.mem_of_getElem? hv)))

/-- **Every step of the gates** is one of these, where visits that are over have given
back what they had. -/
theorem step_gate (s : Gates) (a : Action) (hback : ∀ v ∈ s.visits, v.GaveBack) :
    GateStep g s (s.step g a) := by
  cases a with
  | arrive request preset now =>
    exact .arrives now _ _ (Visit.arrives_arrive now s.world s.visits.length request preset)
  | resume i timedOut now =>
    exact gateStep_onVisit s i now (fun w v => v.resume g w timedOut now) hback
      (fun v hv => Visit.turn_resume now s.world hv timedOut)
      fun v => ⟨none, Visit.moved_resume g now none s.world v timedOut⟩
  | readRequest i =>
    exact gateStep_onVisit s i 0 (fun w v => (w, v.readRequest.2)) hback
      (fun v hv => Visit.turn_readRequest 0 s.world hv)
      fun v => ⟨none, Visit.moved_readRequest g 0 none s.world v⟩
  | reply i result now =>
    refine gateStep_onVisit s i now (fun w v => v.reply g w result now) hback
      (fun v hv => Visit.turn_reply now s.world hv result) fun v => ?_
    cases result with
    | error error => exact ⟨none, Visit.moved_reply_error g now none s.world v error⟩
    | ok response => exact ⟨some response, Visit.moved_reply_ok g now s.world v response⟩
  | absorb i now =>
    exact gateStep_onVisit s i now (fun w v => v.absorb g w now) hback
      (fun v hv => Visit.turn_absorb now s.world hv)
      fun v => ⟨none, Visit.moved_absorb g now none s.world v⟩
  | deliver i now =>
    exact gateStep_onVisit s i now (fun w v => (v.deliver g w now).2) hback
      (fun v hv => Visit.turn_deliver now s.world hv)
      fun v => ⟨none, Visit.moved_deliver g now none s.world v⟩
  | leave i now =>
    exact gateStep_onVisit s i now (fun w v => v.leave g w now) hback
      (fun v hv => Visit.turn_leave now s.world hv)
      fun v => ⟨none, Visit.moved_leave g now none s.world v⟩
  | purge now => exact .idle _ rfl rfl

end Gates
end Gatehouse.Pipeline
