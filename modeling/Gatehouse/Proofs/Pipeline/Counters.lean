/-
The counters are the books of the history.

The history and the metrics are kept apart: where something happens that is counted, the gates count
it and note it, and neither looks at the other. What ought to be counted for an event is said once
(`Event.counters`); the invariant is that the counters show exactly that, summed up over the
history, and one for every traffic record (`Balanced`). A key that is refused is noted without a
reason, so the books are kept for requests whose faults are known.

Every function of a visit keeps the balance. As every event belongs to one visit, what the counters
grow by in the steps about a visit (`countedBy`) is what is to be counted for the events and the
records of that visit, and all counters are the sum of that over the visits.
-/
import Gatehouse.Proofs.Pipeline.Actors
import Mathlib.Algebra.BigOperators.Intervals

set_option autoImplicit false

namespace Gatehouse

open Gatehouse.Http Gatehouse.Idempotency Gatehouse.Routing Gatehouse.Traffic

/-! ## Values of counters -/

namespace Outputs

/-- **One more of a counter** is one more of it and no more of any other, whether it was there
before or not. -/
theorem lookup_bump (counter other : Counter) (metrics : List (Counter × Nat)) :
    (List.lookup other (bump counter metrics)).getD 0
      = (List.lookup other metrics).getD 0 + if counter = other then 1 else 0 := by
  induction metrics with
  | nil =>
    by_cases h : counter = other
    · subst h
      simp [bump]
    · simp [bump, List.lookup_cons, beq_eq_false_iff_ne.2 (Ne.symm h), h]
  | cons entry rest ih =>
    obtain ⟨c, n⟩ := entry
    by_cases hfirst : c = counter
    · subst hfirst
      by_cases h : c = other
      · subst h
        simp [bump]
      · simp [bump, List.lookup_cons, beq_eq_false_iff_ne.2 (Ne.symm h), h]
    · by_cases h : c = other
      · subst h
        simp [bump, hfirst, Ne.symm hfirst]
      · simp only [bump, hfirst, if_false, List.lookup_cons, beq_eq_false_iff_ne.2 (Ne.symm h), ih]

/-- What a counter shows is changed by counting it alone. -/
theorem value_count (o : Outputs) (counter other : Counter) :
    (o.count counter).value other = o.value other + if counter = other then 1 else 0 :=
  lookup_bump counter other o.metrics

theorem value_tell (o : Outputs) (events : List Diagnostic) (c : Counter) :
    (o.tell events).value c = o.value c := rfl

/-- Records are counted by their origin. -/
theorem value_writeRecords (o : Outputs) (records : List TrafficRecord) (c : Counter) :
    (o.writeRecords records).value c
      = o.value c + (records.map fun r => Counter.trafficLogged r.origin).count c := by
  induction records generalizing o with
  | nil => rfl
  | cons r records ih =>
    have hrest := ih ({ o with records := o.records ++ [r] }.count (.trafficLogged r.origin))
    rw [value_count] at hrest
    rw [List.map_cons, List.count_cons]
    refine hrest.trans ?_
    change o.value c + _ + _ = _
    simp only [beq_iff_eq]
    omega

end Outputs

namespace Pipeline

/-! ## What is to be counted -/

/-- How the metrics call what is wrong with the key of a request. -/
def Visit.keyFault (g : Guard) (request : Request) : IdempotencyEvent :=
  match key? g request with
  | .error refusal => refusalEvent refusal
  | .ok _ => .missing

/-- No fault of a key goes by the name of an execution. -/
theorem Visit.keyFault_ne_executed (g : Guard) (request : Request) :
    keyFault g request ≠ .executed := by
  unfold keyFault
  split
  · rename_i refusal hkey
    cases refusal <;> exact nofun
  · exact nofun

namespace Event

/-- What the metrics call an event of the idempotency gate, where the faults of refused
keys are known. -/
def idempotencyEvent? (fault : Nat → IdempotencyEvent) : Event → Option IdempotencyEvent
  | .keyRefused i => some (fault i)
  | .rejected _ _ => some .rejected
  | .replayed _ _ waited => some (if waited then .waited else .replayed)
  | .stored _ _ => some .executed
  | _ => none

/-- What is to be counted of the breaker gate for an event: a rejection, or a call with its
duration. -/
def breakerCounters : Event → List Counter
  | .denied _ name => [.breakerRejections name]
  | .settled _ name .success => [.breakerCalls name false, .breakerDurations name]
  | .settled _ name .failure => [.breakerCalls name true, .breakerDurations name]
  | _ => []

/-- **What is to be counted for an event.** -/
def counters (fault : Nat → IdempotencyEvent) (e : Event) : List Counter :=
  e.breakerCounters ++ (e.idempotencyEvent? fault).toList.map .idempotencyEvents

end Event

/-- A breaker gives no permission. -/
def Event.denies (name : String) : Event → Bool
  | .denied _ other => other == name
  | _ => false

/-- A record is stored. -/
def Event.stores : Event → Bool
  | .stored _ _ => true
  | _ => false

/-- What is to be counted for traffic records. -/
def recordCounters (records : List TrafficRecord) : List Counter :=
  records.map fun r => .trafficLogged r.origin

/-- Records that are written one after another are counted one after another. -/
theorem recordCounters_append (records more : List TrafficRecord) :
    recordCounters (records ++ more) = recordCounters records ++ recordCounters more :=
  List.map_append

section

variable (fault : Nat → IdempotencyEvent) (events : List Event)

/-- A counter that is counted for some events, once for each, shows how many there are. -/
theorem count_counters {c : Counter} {p : Event → Bool}
    (h : ∀ e, (Event.counters fault e).count c = if p e then 1 else 0) :
    (events.flatMap (Event.counters fault)).count c = events.countP p := by
  induction events with
  | nil => rfl
  | cons e events ih =>
    rw [List.flatMap_cons, List.count_append, ih, h, List.countP_cons, Nat.add_comm]

/-- How often an idempotency event is counted. -/
theorem count_idempotencyEvents (label : IdempotencyEvent) :
    (events.flatMap (Event.counters fault)).count (.idempotencyEvents label)
      = (events.filterMap (Event.idempotencyEvent? fault)).count label := by
  rw [List.count_filterMap]
  refine count_counters fault events fun e => ?_
  cases e with
  | settled visit name how =>
    cases how <;> simp [Event.counters, Event.breakerCounters, Event.idempotencyEvent?]
  | _ => simp [Event.counters, Event.breakerCounters, Event.idempotencyEvent?, List.count_singleton]

/-- How often a rejection is counted. -/
theorem count_breakerRejections (name : String) :
    (events.flatMap (Event.counters fault)).count (.breakerRejections name)
      = events.countP (Event.denies name) := by
  refine count_counters fault events fun e => ?_
  cases e with
  | settled visit other how =>
    cases how
      <;> simp [Event.counters, Event.breakerCounters, Event.idempotencyEvent?, Event.denies]
  | _ =>
    simp [Event.counters, Event.breakerCounters, Event.idempotencyEvent?, Event.denies,
      List.count_singleton]

/-- How often a call is counted, with an outcome. -/
theorem count_breakerCalls (name : String) (failed : Bool) :
    (events.flatMap (Event.counters fault)).count (.breakerCalls name failed)
      = events.countP (Event.settlesAs name (if failed then .failure else .success)) := by
  refine count_counters fault events fun e => ?_
  cases e with
  | settled visit other how =>
    cases how <;> cases failed <;>
      simp [Event.counters, Event.breakerCounters, Event.idempotencyEvent?, Event.settlesAs,
        List.count_cons]
  | _ => simp [Event.counters, Event.breakerCounters, Event.idempotencyEvent?, Event.settlesAs]

/-- A duration is measured with every call that is counted. -/
theorem count_breakerDurations (name : String) :
    (events.flatMap (Event.counters fault)).count (.breakerDurations name)
      = (events.flatMap (Event.counters fault)).count (.breakerCalls name false)
        + (events.flatMap (Event.counters fault)).count (.breakerCalls name true) := by
  induction events with
  | nil => rfl
  | cons e events ih =>
    have hone : (Event.counters fault e).count (.breakerDurations name)
        = (Event.counters fault e).count (.breakerCalls name false)
          + (Event.counters fault e).count (.breakerCalls name true) := by
      cases e with
      | settled visit other how =>
        cases how
          <;> simp [Event.counters, Event.breakerCounters, Event.idempotencyEvent?, List.count_cons]
      | _ => simp [Event.counters, Event.breakerCounters, Event.idempotencyEvent?]
    simp only [List.flatMap_cons, List.count_append]
    omega

/-- Events of the gates count no traffic. -/
theorem count_trafficLogged (origin : Origin) :
    (events.flatMap (Event.counters fault)).count (.trafficLogged origin) = 0 := by
  refine (count_counters fault events (p := fun _ => false) fun e => ?_).trans (by simp)
  cases e with
  | settled visit other how =>
    cases how <;> simp [Event.counters, Event.breakerCounters, Event.idempotencyEvent?]
  | _ => simp [Event.counters, Event.breakerCounters, Event.idempotencyEvent?]

/-- Traffic records count for their origins and for nothing else. -/
theorem count_recordCounters (records : List TrafficRecord) (c : Counter) :
    (recordCounters records).count c = records.countP fun r => .trafficLogged r.origin == c := by
  rw [List.count, recordCounters, List.countP_map]
  rfl

end

/-! ## The balance -/

namespace World

/-- **Balanced:** every counter shows what is to be counted for the events and for the traffic
records so far. -/
def Balanced (fault : Nat → IdempotencyEvent) (w : World) : Prop :=
  ∀ c, w.outputs.value c
    = (w.history.flatMap (Event.counters fault)).count c
      + (recordCounters w.outputs.records).count c

section

variable {fault : Nat → IdempotencyEvent} {w : World}

theorem Balanced.tell (h : w.Balanced fault) (d : Diagnostic) :
    (w.tell d).Balanced fault := fun c => h c

theorem Balanced.withStore (h : w.Balanced fault) (store : Store) :
    ({ w with store } : World).Balanced fault :=
  fun c => h c

theorem Balanced.breaker (h : w.Balanced fault) (name : String) (now : Nat)
    (op : Breaker.Operation) :
    (w.breaker name now op).2.Balanced fault := fun c => h c

/-- Counters that are counted one after another are all counted. -/
theorem value_foldl_count (counters : List Counter) (w : World) (c : Counter) :
    (counters.foldl World.count w).outputs.value c = w.outputs.value c + counters.count c := by
  induction counters generalizing w with
  | nil => rfl
  | cons first counters ih =>
    rw [List.foldl_cons, ih, List.count_cons]
    change (w.outputs.count first).value c + _ = _
    rw [Outputs.value_count]
    simp only [beq_iff_eq]
    omega

theorem foldl_count_eq (counters : List Counter) (w : World) :
    (counters.foldl World.count w).history = w.history
      ∧ (counters.foldl World.count w).outputs.records = w.outputs.records := by
  induction counters generalizing w with
  | nil => exact ⟨rfl, rfl⟩
  | cons first counters ih => exact ih (w.count first)

/-- **An event is noted and counted.** -/
theorem Balanced.noteCounted (h : w.Balanced fault) (counters : List Counter) {e : Event}
    (hcounters : e.counters fault = counters) :
    ((counters.foldl World.count w).note e).Balanced fault := by
  intro c
  obtain ⟨hhistory, hrecords⟩ := foldl_count_eq counters w
  change (counters.foldl World.count w).outputs.value c
    = (((counters.foldl World.count w).history ++ [e]).flatMap (Event.counters fault)).count c
      + (recordCounters (counters.foldl World.count w).outputs.records).count c
  rw [value_foldl_count, hhistory, hrecords, List.flatMap_append, List.count_append,
    List.flatMap_singleton, hcounters, h c]
  omega

/-- An event that is not counted. -/
theorem Balanced.note (h : w.Balanced fault) {e : Event} (hcounters : e.counters fault = []) :
    (w.note e).Balanced fault := h.noteCounted [] hcounters

/-- What is emitted is counted as it is written. -/
theorem Balanced.emit (h : w.Balanced fault) (e : Emission) : (w.emit e).Balanced fault := by
  intro c
  change ((w.outputs.tell e.diagnostics).writeRecords e.records).value c
    = (w.history.flatMap (Event.counters fault)).count c
      + (recordCounters ((w.outputs.tell e.diagnostics).writeRecords e.records).records).count c
  rw [Outputs.value_writeRecords, Outputs.records_writeRecords, Outputs.value_tell,
    recordCounters_append, List.count_append, h c]
  exact Nat.add_assoc ..

/-- A call that is settled is counted once as a call and once as a duration. -/
theorem Balanced.settle (h : w.Balanced fault) (i : Nat) (name : String) (failed : Bool)
    (elapsedMs now : Nat) :
    (w.settle i name failed elapsedMs now).Balanced fault := by
  cases failed with
  | true =>
    have hperformed := (h.breaker name now .fail).tell (.failureRecorded name elapsedMs)
    exact hperformed.noteCounted [.breakerCalls name true, .breakerDurations name] rfl
  | false =>
    have hperformed := h.breaker name now .succeed
    exact hperformed.noteCounted [.breakerCalls name false, .breakerDurations name] rfl

theorem Balanced.handBack (h : w.Balanced fault) (i : Nat) (name : String) (now : Nat) :
    (w.handBack i name now).Balanced fault :=
  ((h.tell (.permissionReleased name)).breaker name now .release).note rfl

theorem Balanced.unclaim (h : w.Balanced fault) (i : Nat) (key : String) :
    (w.unclaim i key).Balanced fault :=
  ((h.tell (.claimReleased key)).withStore _).note rfl

/-- A record that is stored is counted as an execution as it is noted. -/
theorem Balanced.storeRecord (h : w.Balanced fault) (i : Nat) (record : Record) (now : Nat) :
    (w.storeRecord i record now).Balanced fault :=
  ((h.withStore _).tell (.responseStored record.key record.status)).noteCounted
    [.idempotencyEvents .executed] rfl

/-! ### What the counters of a balanced world show -/

/-- The settlements of a breaker are found in the whole history as well. -/
theorem settlementsAs_eq (w : World) (name : String) (how : Settlement) :
    w.settlementsAs name how = w.history.countP (Event.settlesAs name how) := by
  rw [settlementsAs, gateEvents, List.countP_filter]
  refine List.countP_congr fun e _ => ?_
  cases e <;> simp [Event.settlesAs, Event.isGate]

/-- Traffic apart, what is counted is counted for events. -/
theorem Balanced.value_of_ne (h : w.Balanced fault) {c : Counter}
    (hc : ∀ origin, .trafficLogged origin ≠ c) :
    w.outputs.value c = (w.history.flatMap (Event.counters fault)).count c := by
  have hrecords : (recordCounters w.outputs.records).count c = 0 := by
    rw [count_recordCounters]
    exact List.countP_eq_zero.2 fun r _ heq => hc r.origin (beq_iff_eq.1 heq)
  rw [h, hrecords, Nat.add_zero]

theorem Balanced.value_breakerCalls (h : w.Balanced fault) (name : String) (failed : Bool) :
    w.outputs.value (.breakerCalls name failed)
      = w.settlementsAs name (if failed then .failure else .success) := by
  rw [settlementsAs_eq, ← count_breakerCalls fault]
  exact h.value_of_ne nofun

/-- As many durations are counted as calls, whatever their outcomes. -/
theorem Balanced.value_breakerDurations (h : w.Balanced fault) (name : String) :
    w.outputs.value (.breakerDurations name)
      = w.outputs.value (.breakerCalls name false) + w.outputs.value (.breakerCalls name true) := by
  have hcalls : ∀ failed, w.outputs.value (.breakerCalls name failed)
      = (w.history.flatMap (Event.counters fault)).count (.breakerCalls name failed) :=
        fun failed =>
    h.value_of_ne nofun
  rw [hcalls, hcalls, ← count_breakerDurations]
  exact h.value_of_ne nofun

theorem Balanced.value_breakerRejections (h : w.Balanced fault) (name : String) :
    w.outputs.value (.breakerRejections name) = w.history.countP (Event.denies name) := by
  rw [← count_breakerRejections fault]
  exact h.value_of_ne nofun

/-- **Executions** are counted by the records that have been stored, as no fault of a key is taken
for one. -/
theorem Balanced.value_executed (h : w.Balanced fault) (hfault : ∀ i, fault i ≠ .executed) :
    w.outputs.value (.idempotencyEvents .executed) = w.history.countP Event.stores := by
  have hvalue : w.outputs.value (.idempotencyEvents .executed)
      = (w.history.flatMap (Event.counters fault)).count (.idempotencyEvents .executed) :=
        h.value_of_ne nofun
  rw [hvalue, count_idempotencyEvents, List.count_filterMap]
  refine List.countP_congr fun e _ => ?_
  cases e with
  | keyRefused i => simp [Event.idempotencyEvent?, Event.stores, hfault i]
  | replayed visit record waited => cases waited <;> simp [Event.idempotencyEvent?, Event.stores]
  | _ => simp [Event.idempotencyEvent?, Event.stores]

/-- **The traffic** is counted by the records that have been written. -/
theorem Balanced.value_trafficLogged (h : w.Balanced fault) (origin : Origin) :
    w.outputs.value (.trafficLogged origin) = w.outputs.records.countP fun r =>
      r.origin = origin := by
  rw [h, count_trafficLogged, count_recordCounters, Nat.zero_add]
  exact List.countP_congr fun r _ => by simp

end

end World

/-! ## Steps of a visit -/

namespace Visit

section

variable {fault : Nat → IdempotencyEvent} {g : Guard} {w : World} {v : Visit} (now : Nat)

theorem balanced_unclaim (h : w.Balanced fault) (v : Visit) : (v.unclaim w).1.Balanced fault := by
  unfold unclaim
  cases v.claim with
  | none => exact h
  | some key => exact h.unclaim v.id key

theorem balanced_settle (h : w.Balanced fault) (v : Visit) (failed : Bool) :
    (v.settle w failed now).1.Balanced fault := by
  unfold settle
  cases v.permit with
  | none => exact h
  | some name => exact h.settle v.id name failed (now - v.arrivedAt) now

theorem balanced_handBack (h : w.Balanced fault) (v : Visit) :
    (v.handBack w now).1.Balanced fault := by
  unfold handBack
  cases v.permit with
  | none => exact h
  | some name => exact h.handBack v.id name now

/-- An answer is balanced, as the settlement in it is. -/
theorem balanced_answer (h : w.Balanced fault) (v : Visit) (status : Status) (headers : Headers)
    (passage : Passage) :
    (v.answer g w status headers passage now).1.Balanced fault :=
  balanced_settle now h v (g.countsAsFailure status)

theorem balanced_reject (h : w.Balanced fault) (v : Visit) (key : String) :
    (v.reject g w key now).1.Balanced fault := by
  have hnoted :=
    (h.tell (.keyInProgress key)).noteCounted [.idempotencyEvents .rejected]
      (e := .rejected v.id key) rfl
  exact balanced_answer now hnoted v _ _ _

theorem balanced_execute (h : w.Balanced fault) (v : Visit) :
    (v.execute g w now).1.Balanced fault := h.note rfl

/-- A claim attempt counts the event that it notes: a record given, or a rejection. -/
theorem balanced_claimKey (h : w.Balanced fault) (v : Visit) (key : String) :
    (v.claimKey g w key now).1.Balanced fault := by
  unfold claimKey
  rcases w.store.claim key now with ⟨result, store⟩
  have hstore := h.withStore store
  cases result with
  | replay record =>
    have hnoted := (hstore.tell (.replaying key)).noteCounted [.idempotencyEvents .replayed]
      (e := .replayed v.id record false) rfl
    exact balanced_answer now hnoted v _ _ _
  | pending handle =>
    cases hpolicy : g.inFlight with
    | reject => exact balanced_reject now hstore v key
    | wait => exact hstore
  | acquired => exact balanced_execute now (hstore.note (e := .claimed v.id key) rfl) _

/-- A key that is missing or invalid is counted as the fault that it is. -/
theorem balanced_enter (h : w.Balanced fault) (v : Visit)
    (hfault : fault v.id = keyFault g v.request) :
    (v.enter g w now).1.Balanced fault := by
  unfold enter
  by_cases hneeds : g.needsKey v.policy = true
  · rw [if_pos hneeds]
    cases hkey : key? g v.request with
    | ok key => exact balanced_claimKey now h v key
    | error refusal =>
      rw [keyFault, hkey] at hfault
      have hcounters : (Event.keyRefused v.id).counters fault
          = [.idempotencyEvents (refusalEvent refusal)] :=
        congrArg (fun label => [Counter.idempotencyEvents label]) hfault
      have hnoted :=
        (h.tell (.keyRefused v.request.uri.path g.keyHeader.text refusal.message)).noteCounted _
          hcounters
      exact balanced_answer now hnoted v _ _ _
  · rw [if_neg hneeds]
    exact balanced_execute now h v

/-- A visit that comes is counted as rejected if its breaker denies it. -/
theorem balanced_arrive (h : w.Balanced fault) (id : Nat) (request : Request)
    (preset : Option RoutePolicy) (hfault : fault id = keyFault g request) :
    (arrive g w id request preset now).1.Balanced fault := by
  unfold arrive
  generalize g.policyFor preset request = policy
  let v : Visit :=
    { id, request, arrivedAt := now, policy, permit := none, claim := none, place := .gone }
  by_cases hneeds : g.needsPermission policy = true
  case neg =>
    simp only [hneeds]
    exact balanced_enter now h v hfault
  case pos =>
    simp only [hneeds, if_true]
    have hasked := h.breaker policy.breakerName now .acquire
    rcases hperform : w.breaker policy.breakerName now .acquire with ⟨granted, asked⟩
    rw [hperform] at hasked
    cases granted with
    | true =>
      have hnoted := hasked.note (e := .granted id policy.breakerName) rfl
      exact balanced_enter now hnoted { v with permit := some policy.breakerName } hfault
    | false =>
      have hnoted :=
        (hasked.tell
          (.callRejected policy.breakerName request.method.token request.uri.path)).noteCounted
          [.breakerRejections policy.breakerName] (e := .denied id policy.breakerName) rfl
      exact balanced_answer (g := g) now hnoted v _ _ _

theorem balanced_resume (h : w.Balanced fault) (v : Visit) (timedOut : Bool) :
    (v.resume g w timedOut now).1.Balanced fault := by
  unfold resume
  cases v.place with
  | waiting key handle =>
    dsimp only
    rcases w.store.ending? handle with _ | ⟨record⟩ | _
    · cases timedOut with
      | true => exact balanced_reject now h v key
      | false => exact h
    · have hnoted := (h.tell (.replayingAfterWait key)).noteCounted [.idempotencyEvents .waited]
        (e := .replayed v.id record true) rfl
      exact balanced_answer now hnoted v _ _ _
    · exact balanced_claimKey now h v key
  | _ => exact h

/-- A handler that fails has its permission settled as a failure. -/
theorem balanced_reply (h : w.Balanced fault) (v : Visit) (result : Except String Response) :
    (v.reply g w result now).1.Balanced fault := by
  unfold reply
  cases v.place with
  | executing passage =>
    cases result with
    | error error =>
      have hnoted :=
        (h.note (e := .returned v.id (.error error)) rfl).emit (passage.failed g.recorder error)
      exact balanced_settle now (balanced_unclaim hnoted v) _ true
    | ok response =>
      have hnoted := h.note (e := .returned v.id (.ok (response.status, response.headers))) rfl
      cases hclaim : v.claim with
      | none => exact balanced_answer now hnoted v _ _ _
      | some key => exact hnoted
  | _ => exact h

theorem balanced_absorb (h : w.Balanced fault) (v : Visit) :
    (v.absorb g w now).1.Balanced fault := by
  unfold absorb
  cases v.place with
  | storing key status headers passage reading =>
    dsimp only
    rcases passage.pollResponse g.recorder now with ⟨result, emission, next⟩
    have hemitted := h.emit emission
    cases result with
    | failure error =>
      have htold := hemitted.tell (.captureFailed key (Refusal.captureFailed error).message)
      exact balanced_answer now (balanced_unclaim htold v) _ _ _ _
    | ended => exact balanced_answer now (hemitted.storeRecord v.id _ now) _ _ _ _
    | frame frame => exact hemitted
    | pending => exact hemitted
  | _ => exact h

theorem balanced_deliver (h : w.Balanced fault) (v : Visit) :
    (v.deliver g w now).2.1.Balanced fault := by
  unfold deliver
  cases v.place with
  | answered status headers passage => exact h.emit _
  | _ => exact h

theorem balanced_leave (h : w.Balanced fault) (v : Visit) : (v.leave g w now).1.Balanced fault :=
  balanced_handBack now (balanced_unclaim (h.emit (v.droppedEmission g now)) v) _

/-- **Every action on a visit keeps the balance.** -/
theorem balanced_act (h : w.Balanced fault) (v : Visit) (a : Action) :
    (v.act g w a).1.Balanced fault := by
  cases a with
  | resume i timedOut now => exact balanced_resume now h v timedOut
  | readRequest i => exact h
  | reply i result now => exact balanced_reply now h v result
  | absorb i now => exact balanced_absorb now h v
  | deliver i now => exact balanced_deliver now h v
  | leave i now => exact balanced_leave now h v
  | arrive request preset now => exact h
  | purge now => exact h

end

end Visit

namespace Gates

/-! ## Runs -/

/-- **The faults of the requests that have come:** what the metrics call what is wrong
with their keys. -/
def KnowsFaults (g : Guard) (fault : Nat → IdempotencyEvent) (s : Gates) : Prop :=
  ∀ (i : Nat) (v : Visit), s.visits[i]? = some v → fault i = Visit.keyFault g v.request

/-- How much a counter grows by in an action. -/
def growth (g : Guard) (c : Counter) (s : Gates) (a : Action) : Nat :=
  (s.step g a).world.outputs.value c - s.world.outputs.value c

/-- **What a visit has been counted for** on a counter: what the counter has grown by in the actions
about the visit. -/
def countedBy (g : Guard) (i : Nat) (c : Counter) (s : Gates) (actions : List Action) : Nat :=
  (gathered g (fun s a => if s.actor? a = some i then [s.growth g c a] else []) s actions).sum

/-- One more step adds what it counts, if it is about the visit. -/
theorem countedBy_concat (g : Guard) (i : Nat) (c : Counter) (s : Gates) (actions : List Action)
    (a : Action) :
    countedBy g i c s (actions ++ [a])
      = countedBy g i c s actions
        + if (s.run g actions).actor? a = some i then (s.run g actions).growth g c a else 0 := by
  rw [countedBy, gathered_concat, List.sum_append]
  split
  · rw [List.sum_singleton]
    rfl
  · rfl

section

variable {g : Guard} {fault : Nat → IdempotencyEvent} {s : Gates} {a : Action}

/-- There are always faults that fit, and a fault is no execution. -/
theorem exists_knowsFaults (g : Guard) (s : Gates) :
    ∃ fault, KnowsFaults g fault s ∧ ∀ i, fault i ≠ .executed := by
  refine ⟨fun i => ((s.visits[i]?).map fun v => Visit.keyFault g v.request).getD .missing,
    fun i v hv => ?_, fun i => ?_⟩
  · dsimp only
    rw [hv]
    rfl
  · dsimp only
    cases s.visits[i]? with
    | none => change IdempotencyEvent.missing ≠ .executed; decide
    | some v => exact Visit.keyFault_ne_executed g v.request

/-- What is known of the faults of all visits after a step is known of those before it. -/
theorem KnowsFaults.of_step (h : KnowsFaults g fault (s.step g a)) : KnowsFaults g fault s := by
  intro i v hv
  obtain ⟨u, hu, hrequest, -⟩ := known_step (g := g) hv a
  rw [h i u hu, hrequest]

/-- **Every step keeps the balance.** -/
theorem balanced_step (h : s.world.Balanced fault) (hfault : KnowsFaults g fault (s.step g a)) :
    (s.step g a).world.Balanced fault := by
  cases hactor : s.actor? a with
  | none =>
    cases a with
    | purge now => exact h.withStore _
    | _ => cases hactor
  | some i =>
    rcases arrives_or_acts hactor with ⟨request, preset, now, rfl, rfl⟩ | ha
    · refine Visit.balanced_arrive now h s.visits.length request preset ?_
      have hlast : (s.step g (.arrive request preset now)).visits[s.visits.length]?
          = some (Visit.arrive g s.world s.visits.length request preset now).2 := by
        rw [visits_step_arrive, List.getElem?_concat_length]
      rw [hfault _ _ hlast,
        (Visit.request_policy_arrive g s.world s.visits.length request preset now).1]
    · cases hv : s.visits[i]? with
      | none => rwa [step_of_none hv ha]
      | some v =>
        rw [step_of_getElem? hv ha]
        exact Visit.balanced_act h v a

end

section

variable (g : Guard) (config : Breaker.BreakerConfig) (ttlMs : Option Nat) (actions : List Action)

/-- **On every run the counters are the books of the history.** -/
theorem balanced_run {fault : Nat → IdempotencyEvent}
    (hfault : KnowsFaults g fault ((start (World.start config ttlMs)).run g actions)) :
    ((start (World.start config ttlMs)).run g actions).world.Balanced fault := by
  induction actions using List.reverseRecOn with
  | nil => exact fun _ => rfl
  | append_singleton actions a ih =>
    rw [run_concat] at hfault ⊢
    exact balanced_step (ih hfault.of_step) hfault

end

section

variable {g : Guard} {fault : Nat → IdempotencyEvent} {s t : Gates} {events : List Event}
  {records : List TrafficRecord}

/-- A counter grows by what is to be counted for what is noted and written. -/
theorem value_of_grows (hs : s.world.Balanced fault) (ht : t.world.Balanced fault)
    (h : s.world.Grows t.world events records) (c : Counter) :
    t.world.outputs.value c = s.world.outputs.value c
      + ((events.flatMap (Event.counters fault)).count c + (recordCounters records).count c) := by
  rw [ht c, hs c, h.history, h.records, List.flatMap_append, List.count_append,
    recordCounters_append, List.count_append]
  omega

/-- Nothing is counted in an action on a visit that is not there. -/
theorem growth_of_none {a : Action} {i : Nat} (hnone : s.visits[i]? = none) (ha : a.visit? = some i)
    (c : Counter) :
    s.growth g c a = 0 := by
  rw [growth, step_of_none hnone ha, Nat.sub_self]

end

section

variable {g : Guard} {config : Breaker.BreakerConfig} {ttlMs : Option Nat} {actions : List Action}

/-- **What a visit has been counted for** is what is to be counted for its events and its
traffic records. -/
theorem countedBy_run {fault : Nat → IdempotencyEvent}
    (hfault : KnowsFaults g fault ((start (World.start config ttlMs)).run g actions)) (i : Nat)
    (c : Counter) :
    countedBy g i c (start (World.start config ttlMs)) actions
      = ((((start (World.start config ttlMs)).run g actions).world.eventsOf i).flatMap
          (Event.counters fault)).count c
        + (recordCounters (writtenBy g i (start (World.start config ttlMs)) actions)).count c := by
  induction actions using List.reverseRecOn with
  | nil => rfl
  | append_singleton actions a ih =>
    have howned := owned_run g config ttlMs actions
    have hback := (accounted_run g config ttlMs actions).gaveBack howned
    rw [run_concat] at hfault
    have hbefore := balanced_run g config ttlMs actions hfault.of_step
    have hafter := balanced_step hbefore hfault
    obtain ⟨events, records, hgrows, hvisit⟩ := grows_step howned hback a
    have hgrowth : ((start (World.start config ttlMs)).run g actions).growth g c a
        = (events.flatMap (Event.counters fault)).count c + (recordCounters records).count c := by
      rw [growth, value_of_grows hbefore hafter hgrows, Nat.add_sub_cancel_left]
    have hwritten := hgrows.added_eq (records_step (g := g) _ a hback)
    rw [countedBy_concat, run_concat, writtenBy_concat, ih hfault.of_step,
      eventsOf_of_grows hgrows hvisit, List.flatMap_append, List.count_append,
      recordCounters_append, List.count_append]
    split
    · rw [hgrowth, hwritten]
      omega
    · rfl

/-- A number that nobody has yet has not been counted. -/
theorem countedBy_of_length_le {i : Nat}
    (hi : ((start (World.start config ttlMs)).run g actions).visits.length ≤ i) (c : Counter) :
    countedBy g i c (start (World.start config ttlMs)) actions = 0 := by
  induction actions using List.reverseRecOn with
  | nil => rfl
  | append_singleton actions a ih =>
    rw [run_concat] at hi
    have hbefore := Nat.le_trans (length_le_step g _ a) hi
    rw [countedBy_concat, ih hbefore, Nat.zero_add]
    refine (ite_eq_right_iff).2 fun hactor => ?_
    rcases arrives_or_acts hactor with ⟨request, preset, now, rfl, rfl⟩ | ha
    · rw [visits_step_arrive, List.length_append] at hi
      exact absurd hi (Nat.not_succ_le_self _)
    · exact growth_of_none (List.getElem?_eq_none hbefore) ha c

/-- Of what is counted in an action the visit that it is about takes all. -/
theorem sum_countedBy_concat (c : Counter) (s : Gates) (a : Action) (i n : Nat)
    (hactor : (s.run g actions).actor? a = some i) :
    ∑ j ∈ Finset.range n, countedBy g j c s (actions ++ [a])
      = ∑ j ∈ Finset.range n, countedBy g j c s actions
        + if i < n then (s.run g actions).growth g c a else 0 := by
  simp only [countedBy_concat, hactor, Option.some.injEq, Finset.sum_add_distrib, Finset.sum_ite_eq,
    Finset.mem_range]

/-- **Every counter is the sum of what the visits have been counted for.** -/
theorem value_eq_sum (c : Counter) :
    ((start (World.start config ttlMs)).run g actions).world.outputs.value c
      = ∑ i ∈ Finset.range ((start (World.start config ttlMs)).run g actions).visits.length,
          countedBy g i c (start (World.start config ttlMs)) actions := by
  induction actions using List.reverseRecOn with
  | nil => rfl
  | append_singleton actions a ih =>
    let s := (start (World.start config ttlMs)).run g actions
    have howned := owned_run g config ttlMs actions
    have hback := (accounted_run g config ttlMs actions).gaveBack howned
    obtain ⟨fault, hfault, -⟩ := exists_knowsFaults g (s.step g a)
    have hbefore := balanced_run g config ttlMs actions hfault.of_step
    obtain ⟨events, records, hgrows, -⟩ := grows_step howned hback a
    have hle : s.world.outputs.value c ≤ (s.step g a).world.outputs.value c := by
      rw [value_of_grows hbefore (balanced_step hbefore hfault) hgrows]
      exact Nat.le_add_right _ _
    have hvalue : (s.step g a).world.outputs.value c = s.world.outputs.value c + s.growth g c a :=
      (Nat.add_sub_of_le hle).symm
    rw [run_concat]
    change (s.step g a).world.outputs.value c = ∑ i ∈ Finset.range (s.step g a).visits.length, _
    rw [hvalue, ih]
    cases hactor : s.actor? a with
    | none =>
      cases a with
      | purge now =>
        -- it is about no visit and counts nothing
        have hnothing : s.growth g c (.purge now) = 0 := Nat.sub_self _
        have hsame : ∀ i,
            countedBy g i c (start (World.start config ttlMs)) (actions ++ [.purge now])
            = countedBy g i c (start (World.start config ttlMs)) actions := fun i => by
          rw [countedBy_concat]
          exact congrArg _ (if_neg (Option.some_ne_none i).symm)
        simp only [hsame, hnothing]
        rfl
      | _ => cases hactor
    | some i =>
      rw [sum_countedBy_concat c _ a i _ hactor]
      rcases arrives_or_acts hactor with ⟨request, preset, now, rfl, rfl⟩ | ha
      · have hnew : countedBy g s.visits.length c (start (World.start config ttlMs)) actions = 0 :=
          countedBy_of_length_le (Nat.le_refl _) c
        rw [visits_step_arrive, List.length_append, List.length_singleton,
          if_pos (Nat.lt_succ_self _), Finset.sum_range_succ, hnew]
        rfl
      · cases hv : s.visits[i]? with
        | none =>
          have hnothing : s.growth g c a = 0 := growth_of_none hv ha c
          rw [step_of_none hv ha]
          change _ + s.growth g c a = _ + if i < s.visits.length then s.growth g c a else 0
          rw [hnothing, ite_self]
        | some v =>
          rw [step_of_getElem? hv ha, List.length_set, if_pos (List.getElem?_eq_some_iff.1 hv).1]

end

end Gates
end Pipeline
end Gatehouse
