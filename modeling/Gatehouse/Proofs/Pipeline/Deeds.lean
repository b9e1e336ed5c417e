/-
What a visit does.

A step of a visit is seen in three ways. For the store it is one of the `Moves`, for the breakers it
is what `Carries` says; here it is a deed: the events that it notes and the traffic records that it
writes, in order, and the place that it leads to, with the very bodies that the visit has there. A
request that has come, and one that has waited, pass the idempotency gate (`Passes`); everything
else happens at the handler and after it (`Deed`). What is noted of the permission comes last and
depends on the place alone (`settling`).

Each function of a visit is taken apart once more, and `step_deed` puts the steps of
the gates together.
-/
import Gatehouse.Proofs.Pipeline.ExclusiveClaims
import Gatehouse.Proofs.Pipeline.Permits

set_option autoImplicit false

namespace Gatehouse

open Gatehouse.Http Gatehouse.Idempotency Gatehouse.Routing Gatehouse.Traffic

theorem Outputs.records_writeRecords (o : Outputs) (records : List TrafficRecord) :
    (o.writeRecords records).records = o.records ++ records := by
  induction records generalizing o with
  | nil => exact (List.append_nil o.records).symm
  | cons r records ih =>
    have hrest := ih ({ o with records := o.records ++ [r] }.count (.trafficLogged r.origin))
    rw [List.append_cons]
    exact hrest

namespace Pipeline

/-! ## What is added to a world -/

namespace World

/-- **A world grows** by events and by traffic records; nothing of either is ever taken away. -/
structure Grows (w after : World) (events : List Event) (records : List TrafficRecord) : Prop where
  history : after.history = w.history ++ events
  records : after.outputs.records = w.outputs.records ++ records

section

variable {w before after : World} {events more : List Event} {records others : List TrafficRecord}

theorem Grows.refl (w : World) : w.Grows w [] [] :=
  ⟨(List.append_nil w.history).symm, (List.append_nil w.outputs.records).symm⟩

/-- What happens in two parts is added in their order. -/
theorem Grows.trans (h : w.Grows before events records) (hmore : before.Grows after more others) :
    w.Grows after (events ++ more) (records ++ others) := by
  refine ⟨?_, ?_⟩
  · rw [hmore.history, h.history, List.append_assoc]
  · rw [hmore.records, h.records, List.append_assoc]

/-- An event that is noted is added to the history. -/
theorem Grows.note (h : w.Grows before events records) (e : Event) :
    w.Grows (before.note e) (events ++ [e]) records := by
  refine ⟨?_, h.records⟩
  rw [← List.append_assoc, ← h.history]
  rfl

/-- Records that are emitted are added to the records. -/
theorem Grows.emit (h : w.Grows before events records) (e : Emission) :
    w.Grows (before.emit e) events (records ++ e.records) := by
  refine ⟨h.history, ?_⟩
  rw [← List.append_assoc, ← h.records]
  exact Outputs.records_writeRecords _ _

/-- Diagnostics, counters, the store and the breakers add to neither. -/
theorem Grows.tell (h : w.Grows before events records) (d : Diagnostic) :
    w.Grows (before.tell d) events records := ⟨h.history, h.records⟩

theorem Grows.count (h : w.Grows before events records) (c : Counter) :
    w.Grows (before.count c) events records := ⟨h.history, h.records⟩

theorem Grows.withStore (h : w.Grows before events records) (store : Store) :
    w.Grows { before with store } events records := ⟨h.history, h.records⟩

theorem Grows.breaker (h : w.Grows before events records) (name : String) (now : Nat)
    (op : Breaker.Operation) :
    w.Grows (before.breaker name now op).2 events records := ⟨h.history, h.records⟩

/-- A permission that is settled is noted with its outcome, whatever is told and counted besides. -/
theorem Grows.settle (h : w.Grows before events records) (i : Nat) (name : String) (failed : Bool)
    (elapsedMs now : Nat) :
    w.Grows (before.settle i name failed elapsedMs now)
      (events ++ [.settled i name (if failed then .failure else .success)]) records := by
  cases failed with
  | true =>
    -- a failure is told of as well, which adds neither an event nor a record
    have hperformed := (h.breaker name now .fail).tell (.failureRecorded name elapsedMs)
    exact ((hperformed.count (.breakerCalls name true)).count (.breakerDurations name)).note _
  | false =>
    have hperformed := h.breaker name now .succeed
    exact ((hperformed.count (.breakerCalls name false)).count (.breakerDurations name)).note _

theorem Grows.handBack (h : w.Grows before events records) (i : Nat) (name : String) (now : Nat) :
    w.Grows (before.handBack i name now) (events ++ [.settled i name .release]) records :=
  ((h.tell (.permissionReleased name)).breaker name now .release).note _

/-- A claim that is given up is noted. -/
theorem Grows.unclaim (h : w.Grows before events records) (i : Nat) (key : String) :
    w.Grows (before.unclaim i key) (events ++ [.unclaimed i key]) records :=
  ((h.tell (.claimReleased key)).withStore _).note _

/-- A record that is stored is noted, and is no record of the traffic. -/
theorem Grows.storeRecord (h : w.Grows before events records) (i : Nat) (record : Record)
    (now : Nat) :
    w.Grows (before.storeRecord i record now) (events ++ [.stored i record]) records :=
  (((h.withStore _).tell (.responseStored record.key record.status)).count
    (.idempotencyEvents .executed)).note _

end

end World

namespace Visit

/-! ## Deeds -/

/-- What is noted of the claim of a visit that gives it up. -/
def unclaiming (v : Visit) : List Event := v.claim.toList.map fun key => .unclaimed v.id key

/-- What is noted of the permission of a visit that comes to a place: nothing as long as
it is under way. -/
def settling (g : Guard) (v : Visit) (place : Place) : List Event :=
  if place.UnderWay then []
  else v.permit.toList.map fun name => .settled v.id name (g.settlement place)

/-- The handler is called, and there is a recorder for what is selected. -/
def passageOf (g : Guard) (v : Visit) (now : Nat) : Passage :=
  Passage.start (if g.records v.request then some g.recorder else none) v.request now

/-- **A visit passes the idempotency gate,** or does not. The last two arguments are the events that
it notes and the place that it is in then. -/
inductive Passes (g : Guard) (now : Nat) (v : Visit) : List Event → Place → Prop where
  /-- It has no key that can be used. -/
  | refused (headers : Headers) (body : Body) :
    Passes g now v [.keyRefused v.id] (.answered .badRequest headers (.ofBody body))
  /-- The handler is called, perhaps for a key. -/
  | called (key : Option String) :
    Passes g now v ((key.toList.map fun key => .claimed v.id key) ++ [.invoked v.id])
      (.executing (v.passageOf g now))
  /-- It is answered with a record. -/
  | replays (record : Record) (waited : Bool) :
    Passes g now v [.replayed v.id record waited] (recordPlace record)
  /-- It waits for somebody else's claim. -/
  | waits (key : String) (handle : InFlight) : Passes g now v [] (.waiting key handle)
  /-- It is told that its key is being executed. -/
  | rejected (key : String) (headers : Headers) (body : Body) :
    Passes g now v [.rejected v.id key] (.answered .conflict headers (.ofBody body))

/-- **Deed** of a visit in a step. The last three arguments are the events that it notes, without
that of its permission, the traffic records that it writes, and the place that it is in then. -/
inductive Deed (g : Guard) (now : Nat) (v : Visit) :
    List Event → List TrafficRecord → Place → Prop where
  | stays : Deed g now v [] [] v.place
  /-- It has waited, and comes to the idempotency gate again. -/
  | passes (key : String) (handle : InFlight) (events : List Event) (place : Place)
      (hplace : v.place = .waiting key handle) (hpasses : Passes g now v events place) :
    Deed g now v events [] place
  /-- Its handler polls the request body. -/
  | reads (passage : Passage) (hplace : v.place = .executing passage) :
    Deed g now v [] [] (.executing passage.pollRequest.2)
  | fails (passage : Passage) (error : String) (hplace : v.place = .executing passage) :
    Deed g now v (.returned v.id (.error error) :: v.unclaiming)
      (passage.failed g.recorder error).records
      (.failed error)
  /-- Its handler answers, and the response goes out. -/
  | answers (passage : Passage) (response : Response) (hplace : v.place = .executing passage) :
    Deed g now v [.returned v.id (.ok (response.status, response.headers))] []
      (.answered response.status response.headers (passage.respond g.recorder response))
  /-- Its handler answers, and the response is to be stored. -/
  | captures (key : String) (passage : Passage) (response : Response)
      (hplace : v.place = .executing passage) :
    Deed g now v [.returned v.id (.ok (response.status, response.headers))] []
      (.storing key response.status response.headers (passage.respond g.recorder response)
        Reading.start)
  /-- The response that is to be stored is polled, and there may be more of it. -/
  | absorbs (key : String) (status : Status) (headers : Headers) (passage : Passage)
      (reading next : Reading) (hplace : v.place = .storing key status headers passage reading) :
    Deed g now v [] (passage.pollResponse g.recorder now).2.1.records
      (.storing key status headers (passage.pollResponse g.recorder now).2.2 next)
  /-- The response that is to be stored turns out to be unreadable. -/
  | captureFails (key : String) (status : Status) (headers : Headers) (passage : Passage)
      (reading : Reading) (error : String) (answerHeaders : Headers) (body : Body)
      (hplace : v.place = .storing key status headers passage reading)
      (hfailed : (passage.pollResponse g.recorder now).1 = .failure error) :
    Deed g now v v.unclaiming (passage.pollResponse g.recorder now).2.1.records
      (.answered .badGateway answerHeaders (.ofBody body))
  /-- The response that is to be stored has ended. -/
  | stores (key : String) (status : Status) (headers : Headers) (passage : Passage)
      (reading : Reading) (record : Record)
      (hplace : v.place = .storing key status headers passage reading)
      (hended : (passage.pollResponse g.recorder now).1 = .ended)
      (hstatus : record.status = status) :
    Deed g now v [.stored v.id record] (passage.pollResponse g.recorder now).2.1.records
      (recordPlace record)
  /-- Its client polls the response body. -/
  | delivers (status : Status) (headers : Headers) (passage : Passage)
      (hplace : v.place = .answered status headers passage) :
    Deed g now v [] (passage.pollResponse g.recorder now).2.1.records
      (.answered status headers (passage.pollResponse g.recorder now).2.2)
  /-- It is dropped. -/
  | leaves : Deed g now v v.unclaiming (v.droppedEmission g now).records .gone

/-- **A visit comes to the idempotency gate,** and settles the permission if there is one and
the visit is over. -/
inductive Enters (g : Guard) (now : Nat) (w : World) (v : Visit) (after : World) (u : Visit) : Prop
  | intro (events : List Event) (hid : u.id = v.id) (hrequest : u.request = v.request)
      (hpasses : Passes g now v events u.place)
      (hgrows : w.Grows after (events ++ v.settling g u.place) [])

/-- **A step of a visit does a deed,** and settles the permission if there is one and
the visit is over. -/
inductive Does (g : Guard) (now : Nat) (w : World) (v : Visit) (after : World) (u : Visit) : Prop
  | intro (events : List Event) (records : List TrafficRecord) (hid : u.id = v.id)
      (hrequest : u.request = v.request) (hdeed : Deed g now v events records u.place)
      (hgrows : w.Grows after (events ++ v.settling g u.place) records)

/-- **A visit comes,** with a number: it is denied, or it passes the idempotency gate with the
permission that it has, if it needs one. -/
inductive Comes (g : Guard) (now : Nat) (w : World) (number : Nat) (after : World)
    (u : Visit) : Prop
  | denied (name : String) (headers : Headers) (body : Body) (hid : u.id = number)
      (hplace : u.place = .answered .serviceUnavailable headers (.ofBody body))
      (hgrows : w.Grows after [.denied number name] [])
  | enters (v : Visit) (asked : World) (hnumber : v.id = number)
      (hasked : w.Grows asked (v.permit.toList.map fun name => .granted v.id name) [])
      (henters : Enters g now asked v after u)

section

variable {g : Guard} {w before : World} {v u : Visit} (now : Nat)
  {events : List Event} {records : List TrafficRecord}

/-- An answer settles a permission as a failure or as a success. -/
theorem settling_answered (g : Guard) (v : Visit) (status : Status) (headers : Headers)
    (passage : Passage) :
    v.settling g (.answered status headers passage)
      = v.permit.toList.map fun name =>
          .settled v.id name (if g.countsAsFailure status then .failure else .success) :=
  if_neg not_false

/-- What is noted of a claim that is given up. -/
@[simp] theorem mem_unclaiming_iff {e : Event} :
    e ∈ v.unclaiming ↔ ∃ key, v.claim = some key ∧ e = .unclaimed v.id key := by
  simp [unclaiming, eq_comm]

/-- What is noted of a permission when its visit ends in a place. -/
@[simp] theorem mem_settling_iff {place : Place} {e : Event} :
    e ∈ v.settling g place
      ↔ ¬place.UnderWay ∧ ∃ name, v.permit = some name
        ∧ e = .settled v.id name (g.settlement place) := by
  unfold settling
  split
  · simp [*]
  · simp [*, eq_comm]

/-- A visit under way has nothing settled. -/
theorem settling_of_underWay {place : Place} (h : place.UnderWay) :
    v.settling g place = [] := if_pos h

/-- A key is refused as a bad request. -/
theorem status_of_key? {request : Request} {refusal : Refusal}
    (h : key? g request = .error refusal) :
    refusal.status = .badRequest := by
  unfold key? at h
  split at h
  · cases h; rfl
  · cases h; rfl
  · split at h
    · cases h; rfl
    · cases h

/-! ### Giving back -/

/-- A visit that gives up its claim adds that, if it has one. -/
theorem grows_unclaim (h : w.Grows before events records) (v : Visit) :
    w.Grows (v.unclaim before).1 (events ++ v.unclaiming) records := by
  unfold unclaim unclaiming
  cases v.claim with
  | none => simpa using h
  | some key => exact h.unclaim v.id key

/-- A visit whose permission is settled adds that, if it has one. -/
theorem grows_settle (h : w.Grows before events records) (v : Visit) (failed : Bool) :
    w.Grows (v.settle before failed now).1
      (events ++ v.permit.toList.map fun name =>
        .settled v.id name (if failed then .failure else .success))
      records := by
  unfold settle
  cases v.permit with
  | none => simpa using h
  | some name => exact h.settle v.id name failed (now - v.arrivedAt) now

theorem grows_handBack (h : w.Grows before events records) (v : Visit) :
    w.Grows (v.handBack before now).1
      (events ++ v.permit.toList.map fun name => .settled v.id name .release) records := by
  unfold handBack
  cases v.permit with
  | none => simpa using h
  | some name => exact h.handBack v.id name now

/-- **An answer adds** the settlement of the permission, and nothing else. -/
theorem grows_answer (h : w.Grows before events records) (v : Visit) (status : Status)
    (headers : Headers) (passage : Passage) :
    w.Grows (v.answer g before status headers passage now).1
      (events ++ v.settling g (.answered status headers passage)) records := by
  rw [settling_answered]
  exact grows_settle now h v (g.countsAsFailure status)

/-- An answer after some events is what they and the settlement make of the visit. -/
theorem answer_parts (h : w.Grows before events records) (hid : u.id = v.id)
    (hrequest : u.request = v.request) (hpermit : u.permit = v.permit) (status : Status)
    (headers : Headers) (passage : Passage) :
    (u.answer g before status headers passage now).2.id = v.id
      ∧ (u.answer g before status headers passage now).2.request = v.request
      ∧ (u.answer g before status headers passage now).2.place = .answered status headers passage
      ∧ w.Grows (u.answer g before status headers passage now).1
          (events ++ v.settling g (.answered status headers passage)) records := by
  have hgrows := grows_answer (g := g) now h u status headers passage
  have hsettling : u.settling g (.answered status headers passage)
      = v.settling g (.answered status headers passage) := by
    rw [settling, settling, hid, hpermit]
  obtain ⟨-, hvisit⟩ := answer_eq g now before u status headers passage
  rw [hsettling] at hgrows
  rw [hvisit]
  exact ⟨hid, hrequest, rfl, hgrows⟩

/-- A visit that the idempotency gate answers has entered it, and its permission is settled. -/
theorem enters_answer (h : w.Grows before events []) {status : Status} {headers : Headers}
    {passage : Passage} (hpasses : Passes g now v events (.answered status headers passage)) :
    Enters g now w v (v.answer g before status headers passage now).1
      (v.answer g before status headers passage now).2 := by
  obtain ⟨hid, hrequest, hplace, hgrows⟩ :=
    answer_parts (g := g) now h rfl rfl rfl status headers passage
  rw [← hplace] at hpasses hgrows
  exact ⟨events, hid, hrequest, hpasses, hgrows⟩

/-- A visit that is answered after a deed has done it, and its permission is settled. -/
theorem does_answer (h : w.Grows before events records) (hid : u.id = v.id)
    (hrequest : u.request = v.request) (hpermit : u.permit = v.permit) {status : Status}
    {headers : Headers} {passage : Passage}
    (hdeed : Deed g now v events records (.answered status headers passage)) :
    Does g now w v (u.answer g before status headers passage now).1
      (u.answer g before status headers passage now).2 := by
  obtain ⟨hidu, hrequestu, hplace, hgrows⟩ :=
    answer_parts (g := g) now h hid hrequest hpermit status headers passage
  rw [← hplace] at hdeed hgrows
  exact ⟨events, records, hidu, hrequestu, hdeed, hgrows⟩

/-! ### At the idempotency gate -/

theorem enters_reject (h : w.Grows before [] []) (v : Visit) (key : String) :
    Enters g now w v (v.reject g before key now).1 (v.reject g before key now).2 := by
  have hnoted :=
    ((h.tell (.keyInProgress key)).count (.idempotencyEvents .rejected)).note (.rejected v.id key)
  exact enters_answer now hnoted (.rejected key _ _)

/-- **A claim attempt** is a passage of the gate: the handler is called, a record is given, or the
visit waits or is rejected. -/
theorem enters_claimKey (w : World) (v : Visit) (key : String) :
    Enters g now w v (v.claimKey g w key now).1 (v.claimKey g w key now).2 := by
  unfold claimKey
  rcases w.store.claim key now with ⟨result, store⟩
  have hstore := (World.Grows.refl w).withStore store
  cases result with
  | replay record =>
    have hnoted := ((hstore.tell (.replaying key)).count (.idempotencyEvents .replayed)).note
      (.replayed v.id record false)
    exact enters_answer now hnoted (.replays record false)
  | pending handle =>
    cases hpolicy : g.inFlight with
    | reject => exact enters_reject now hstore v key
    | wait => exact ⟨[], rfl, rfl, .waits key handle, hstore⟩
  | acquired =>
    have hcalled := (hstore.note (.claimed v.id key)).note (.invoked v.id)
    exact ⟨_, rfl, rfl, .called (some key), hcalled⟩

/-- **Every visit that enters** passes the gate in one of these ways. -/
theorem enters_enter (w : World) (v : Visit) :
    Enters g now w v (v.enter g w now).1 (v.enter g w now).2 := by
  have hstart := World.Grows.refl w
  unfold enter
  by_cases hneeds : g.needsKey v.policy = true
  · rw [if_pos hneeds]
    cases hkey : key? g v.request with
    | ok key => exact enters_claimKey now w v key
    | error refusal =>
      -- of the refusals that there are, those of a key are bad requests
      have hstatus : (refusal.toResponse v.request.uri.path).status = .badRequest :=
        status_of_key? hkey
      have hnoted :=
        ((hstart.tell (.keyRefused v.request.uri.path g.keyHeader.text refusal.message)).count
          (.idempotencyEvents (refusalEvent refusal))).note (.keyRefused v.id)
      refine enters_answer now hnoted ?_
      rw [hstatus]
      exact .refused _ _
  · rw [if_neg hneeds]
    exact ⟨_, rfl, rfl, .called none, hstart.note (.invoked v.id)⟩

/-- A request that comes is denied, or is a visit that comes to the idempotency gate. -/
theorem comes_arrive (w : World) (number : Nat) (request : Request) (preset : Option RoutePolicy) :
    Comes g now w number (arrive g w number request preset now).1
      (arrive g w number request preset now).2 := by
  have hstart := World.Grows.refl w
  unfold arrive
  generalize g.policyFor preset request = policy
  -- the visit as it is before anything is asked for
  let v : Visit :=
    { id := number, request, arrivedAt := now, policy, permit := none, claim := none,
      place := .gone }
  by_cases hneeds : g.needsPermission policy = true
  case neg =>
    simp only [hneeds]
    exact .enters v w rfl hstart (enters_enter now w v)
  case pos =>
    simp only [hneeds, if_true]
    have hasked := hstart.breaker policy.breakerName now .acquire
    rcases hperform : w.breaker policy.breakerName now .acquire with ⟨granted, asked⟩
    rw [hperform] at hasked
    cases granted with
    | true =>
      let holder : Visit := { v with permit := some policy.breakerName }
      have hnoted := hasked.note (.granted number policy.breakerName)
      exact .enters holder (asked.note (.granted number policy.breakerName)) rfl hnoted
        (enters_enter now _ holder)
    | false =>
      have hnoted :=
        ((hasked.tell
          (.callRejected policy.breakerName request.method.token request.uri.path)).count
          (.breakerRejections policy.breakerName)).note (.denied number policy.breakerName)
      exact .denied policy.breakerName _ _ rfl rfl hnoted

/-! ### Steps of a visit that is there -/

/-- A visit that is over has given its permission back, so nothing is noted of it any more. -/
theorem does_stays (h : v.GaveBack) : Does g now w v w v := by
  have hnothing : v.settling g v.place = [] := by
    unfold settling
    split
    · rfl
    · rename_i hended
      rw [(h hended).1]
      rfl
  refine ⟨[], [], rfl, rfl, .stays, ?_⟩
  rw [hnothing]
  exact .refl w

/-- A visit that has waited enters the gate again, and that is a deed. -/
theorem does_of_enters {now : Nat} {after : World} (h : Enters g now w v after u) {key : String}
    {handle : InFlight} (hplace : v.place = .waiting key handle) : Does g now w v after u := by
  obtain ⟨events, hid, hrequest, hpasses, hgrows⟩ := h
  exact ⟨events, [], hid, hrequest, .passes key handle events u.place hplace hpasses, hgrows⟩

/-- **A visit that is resumed** does one of its deeds. The functions after this one do as well. -/
theorem does_resume (w : World) (h : v.GaveBack) (timedOut : Bool) :
    Does g now w v (v.resume g w timedOut now).1 (v.resume g w timedOut now).2 := by
  have hstart := World.Grows.refl w
  unfold resume
  cases hplace : v.place with
  | waiting key handle =>
    dsimp only
    -- the claim that is waited for is still held, has been completed, or has been given up
    rcases w.store.ending? handle with _ | ⟨record⟩ | _
    · cases timedOut with
      | true => exact does_of_enters (enters_reject now hstart v key) hplace
      | false => exact does_stays now h
    · have hnoted :=
        ((hstart.tell (.replayingAfterWait key)).count (.idempotencyEvents .waited)).note
          (.replayed v.id record true)
      exact does_of_enters (enters_answer now hnoted (.replays record true)) hplace
    · exact does_of_enters (enters_claimKey now w v key) hplace
  | _ => exact does_stays now h

theorem does_readRequest (w : World) (h : v.GaveBack) : Does g now w v w v.readRequest.2 := by
  unfold readRequest
  cases hplace : v.place with
  | executing passage => exact ⟨[], [], rfl, rfl, .reads passage hplace, .refl w⟩
  | _ => exact does_stays now h

/-- A response goes out or is to be stored, by the claim that the visit has. -/
theorem does_reply (w : World) (h : v.GaveBack) (result : Except String Response) :
    Does g now w v (v.reply g w result now).1 (v.reply g w result now).2 := by
  have hstart := World.Grows.refl w
  unfold reply
  cases hplace : v.place with
  | executing passage =>
    cases result with
    | error error =>
      -- the record is written first, then the claim is given up, and the permission is settled last
      let noted := (w.note (.returned v.id (.error error))).emit (passage.failed g.recorder error)
      have hnoted : w.Grows noted [.returned v.id (.error error)]
          (passage.failed g.recorder error).records :=
        (hstart.note _).emit _
      obtain ⟨-, hunclaimed⟩ := unclaim_eq noted v
      obtain ⟨-, hvisit⟩ := unclaim_settle_eq now noted v true
      have hgrows := grows_settle now (grows_unclaim hnoted v) (v.unclaim noted).2 true
      change Does g now w v ((v.unclaim noted).2.settle (v.unclaim noted).1 true now).1
        { ((v.unclaim noted).2.settle (v.unclaim noted).1 true now).2 with place := .failed error }
      rw [hvisit]
      rw [hunclaimed] at hgrows ⊢
      exact ⟨_, _, rfl, rfl, .fails passage error hplace, hgrows⟩
    | ok response =>
      have hnoted := hstart.note (.returned v.id (.ok (response.status, response.headers)))
      cases hclaim : v.claim with
      | none => exact does_answer now hnoted rfl rfl rfl (.answers passage response hplace)
      | some key => exact ⟨_, [], rfl, rfl, .captures key passage response hplace, hnoted⟩
  | _ => exact does_stays now h

/-- A response that is to be stored goes on, has ended, or cannot be read, as the poll of it finds.
-/
theorem does_absorb (w : World) (h : v.GaveBack) :
    Does g now w v (v.absorb g w now).1 (v.absorb g w now).2 := by
  unfold absorb
  cases hplace : v.place with
  | storing key status headers passage reading =>
    dsimp only
    have hemitted := (World.Grows.refl w).emit (passage.pollResponse g.recorder now).2.1
    cases hresult : (passage.pollResponse g.recorder now).1 with
    | failure error =>
      let told := (w.emit (passage.pollResponse g.recorder now).2.1).tell
        (.captureFailed key (Refusal.captureFailed error).message)
      obtain ⟨-, hvisit⟩ := unclaim_eq told v
      have hgiven :=
        grows_unclaim (hemitted.tell (.captureFailed key (Refusal.captureFailed error).message)) v
      exact does_answer now hgiven (by rw [hvisit]) (by rw [hvisit]) (by rw [hvisit])
        (.captureFails key status headers passage reading error _ _ hplace hresult)
    | ended =>
      have hstored := hemitted.storeRecord v.id
        (Record.ofResponse key { status, headers, body := (reading.add .ended).data }) now
      -- the claim ended with the record, so it is a visit without a claim that is answered
      exact does_answer (v := v)
        (u := { v with claim := none, place := .storing key status headers passage reading })
        now hstored rfl rfl rfl (.stores key status headers passage reading _ hplace hresult rfl)
    | frame frame =>
      exact ⟨[], _, rfl, rfl, .absorbs key status headers passage reading _ hplace, hemitted⟩
    | pending =>
      exact ⟨[], _, rfl, rfl, .absorbs key status headers passage reading _ hplace, hemitted⟩
  | _ => exact does_stays now h

theorem does_deliver (w : World) (h : v.GaveBack) :
    Does g now w v (v.deliver g w now).2.1 (v.deliver g w now).2.2 := by
  unfold deliver
  cases hplace : v.place with
  | answered status headers passage =>
    -- the permission was settled with the answer, so there is none to settle now
    have hended : ¬v.place.UnderWay := by rw [hplace]; exact not_false
    have hemitted := (World.Grows.refl w).emit (passage.pollResponse g.recorder now).2.1
    refine ⟨[], _, rfl, rfl, .delivers status headers passage hplace, ?_⟩
    rw [settling_answered, (h hended).1]
    exact hemitted
  | _ => exact does_stays now h

/-- A visit that is dropped leaves whatever it was doing. -/
theorem does_leave (w : World) (v : Visit) :
    Does g now w v (v.leave g w now).1 (v.leave g w now).2 := by
  -- what the place still has to write is written before the claim and the permission go back
  let emitted := w.emit (v.droppedEmission g now)
  have hemitted : w.Grows emitted [] (v.droppedEmission g now).records :=
    (World.Grows.refl w).emit _
  obtain ⟨-, hunclaimed⟩ := unclaim_eq emitted v
  obtain ⟨-, hvisit⟩ := unclaim_handBack_eq now emitted v
  have hgrows := grows_handBack now (grows_unclaim hemitted v) (v.unclaim emitted).2
  change Does g now w v ((v.unclaim emitted).2.handBack (v.unclaim emitted).1 now).1
    { ((v.unclaim emitted).2.handBack (v.unclaim emitted).1 now).2 with place := .gone }
  rw [hvisit]
  rw [hunclaimed] at hgrows ⊢
  exact ⟨_, _, rfl, rfl, .leaves, hgrows⟩

end

end Visit

/-! ## Steps of the gates -/

namespace Gates

/-- The visit that an action is about: that of an arrival is the next one. -/
def actor? (s : Gates) : Action → Option Nat
  | .arrive _ _ _ => some s.visits.length
  | a => a.visit?

/-- **Steps as deeds:** a step about a visit. -/
inductive DeedStep (g : Guard) (s : Gates) (actor : Option Nat) : Gates → Prop where
  | idle (after : World) (hgrows : s.world.Grows after [] []) :
    DeedStep g s actor { world := after, visits := s.visits }
  | does (i now : Nat) (v u : Visit) (after : World) (hv : s.visits[i]? = some v)
      (hactor : actor = some i) (hdoes : Visit.Does g now s.world v after u) :
    DeedStep g s actor { world := after, visits := s.visits.set i u }
  | comes (now : Nat) (u : Visit) (after : World)
      (hcomes : Visit.Comes g now s.world s.visits.length after u) :
    DeedStep g s actor { world := after, visits := s.visits ++ [u] }

section

variable {g : Guard}

/-- A step of one visit is a step of the gates. -/
theorem deedStep_onVisit (s : Gates) (i now : Nat) (f : World → Visit → World × Visit)
    (hback : ∀ v ∈ s.visits, v.GaveBack)
    (hdoes : ∀ v, v.GaveBack → Visit.Does g now s.world v (f s.world v).1 (f s.world v).2) :
    DeedStep g s (some i) (s.onVisit i f) := by
  unfold onVisit
  cases hv : s.visits[i]? with
  | none => exact .idle s.world (.refl s.world)
  | some v => exact .does i now v _ _ hv rfl (hdoes v (hback v (List.mem_of_getElem? hv)))

/-- **Every step of the gates** is one of these, where visits that are over have given
back what they had. -/
theorem step_deed (s : Gates) (a : Action) (hback : ∀ v ∈ s.visits, v.GaveBack) :
    DeedStep g s (s.actor? a) (s.step g a) := by
  cases a with
  | arrive request preset now =>
    exact .comes now _ _ (Visit.comes_arrive now s.world s.visits.length request preset)
  | resume i timedOut now =>
    exact deedStep_onVisit s i now (fun w v => v.resume g w timedOut now) hback
      fun v hv => Visit.does_resume now s.world hv timedOut
  | readRequest i =>
    exact deedStep_onVisit s i 0 (fun w v => (w, v.readRequest.2)) hback
      fun v hv => Visit.does_readRequest 0 s.world hv
  | reply i result now =>
    exact deedStep_onVisit s i now (fun w v => v.reply g w result now) hback
      fun v hv => Visit.does_reply now s.world hv result
  | absorb i now =>
    exact deedStep_onVisit s i now (fun w v => v.absorb g w now) hback
      fun v hv => Visit.does_absorb now s.world hv
  | deliver i now =>
    exact deedStep_onVisit s i now (fun w v => (v.deliver g w now).2) hback
      fun v hv => Visit.does_deliver now s.world hv
  | leave i now =>
    exact deedStep_onVisit s i now (fun w v => v.leave g w now) hback
      fun v _ => Visit.does_leave now s.world v
  | purge now => exact .idle _ ((World.Grows.refl s.world).withStore _)

end

end Gates
end Pipeline
end Gatehouse
