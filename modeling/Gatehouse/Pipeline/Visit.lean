/-
One request on its way through the gates.

A visit is what is known of a request between its arrival and the end of its response. It may hold a
permission of a breaker and the claim on an idempotency key, and it stands in one place: waiting for
somebody else's claim, at the handler, having its response read for the store, answered, failed, or
gone. The functions below are its atomic steps; whatever happens to other visits happens between
them. A step that does not fit the place of a visit changes nothing.

Whatever a visit holds it gives back exactly once, from the inside out: first its claim, then its
permission.
-/
import Gatehouse.Http.Reading
import Gatehouse.Pipeline.Guard
import Gatehouse.Pipeline.Passage
import Gatehouse.Pipeline.World
import Gatehouse.Problem

set_option autoImplicit false

namespace Gatehouse.Pipeline

open Gatehouse.Http Gatehouse.Idempotency Gatehouse.Routing Gatehouse.Traffic

/-- Where a visit stands. -/
inductive Place where
  /-- Waiting for the end of somebody else's claim on its key. -/
  | waiting (key : String) (handle : InFlight)
  /-- At the handler. -/
  | executing (passage : Passage)
  /-- The handler has answered, and the response is read so that it can be stored. -/
  | storing (key : String) (status : Status) (headers : Headers) (passage : Passage)
      (reading : Reading)
  /-- The client has the response and reads its body. -/
  | answered (status : Status) (headers : Headers) (passage : Passage)
  /-- The handler has failed, and the failure was passed on. -/
  | failed (error : String)
  /-- Nothing is left of it. -/
  | gone

structure Visit where
  id : Nat
  request : Request
  /-- When it came, in milliseconds. -/
  arrivedAt : Nat
  policy : RoutePolicy
  /-- The breaker whose permission it holds. -/
  permit : Option String
  /-- The key that it holds the claim on. -/
  claim : Option String
  place : Place

namespace Visit

/-! ## Giving back -/

/-- Settles the permission, if there is one, after a completed call. -/
def settle (w : World) (v : Visit) (failed : Bool) (now : Nat) : World × Visit :=
  match v.permit with
  | none => (w, v)
  | some name => (w.settle v.id name failed (now - v.arrivedAt) now, { v with permit := none })

/-- Gives up the claim, if there is one. -/
def unclaim (w : World) (v : Visit) : World × Visit :=
  match v.claim with
  | none => (w, v)
  | some key => (w.unclaim v.id key, { v with claim := none })

/-- Hands the permission back, if there is one, without an outcome. -/
def handBack (w : World) (v : Visit) (now : Nat) : World × Visit :=
  match v.permit with
  | none => (w, v)
  | some name => (w.handBack v.id name now, { v with permit := none })

/-! ## Answers -/

/-- The client gets a response. -/
def answer (g : Guard) (w : World) (v : Visit) (status : Status) (headers : Headers)
    (passage : Passage) (now : Nat) : World × Visit :=
  let (w, v) := v.settle w (g.countsAsFailure status) now
  (w, { v with place := .answered status headers passage })

/-- The client gets a response of the gates. -/
def answerResponse (g : Guard) (w : World) (v : Visit) (response : Response) (now : Nat) :
    World × Visit :=
  v.answer g w response.status response.headers (Passage.ofBody response.body) now

/-- The client gets the response of a record. -/
def answerRecord (g : Guard) (w : World) (v : Visit) (record : Record) (now : Nat) :
    World × Visit :=
  let response := record.toResponse
  v.answer g w response.status response.headers (Passage.ofBody (Body.ofBytes response.body)) now

/-- The client is told that its key is being executed. -/
def reject (g : Guard) (w : World) (v : Visit) (key : String) (now : Nat) : World × Visit :=
  let w := ((w.tell (.keyInProgress key)).count (.idempotencyEvents .rejected)).note
    (.rejected v.id key)
  let response := (Refusal.inProgress key).toResponse v.request.uri.path
  let headers := response.headers.set retryAfterHeader (Bytes.ofString (toString g.retryAfterSecs))
  v.answerResponse g w { response with headers } now

/-! ## Arriving -/

/-- The handler is called. -/
def execute (g : Guard) (w : World) (v : Visit) (now : Nat) : World × Visit :=
  let recorder := if g.records v.request then some g.recorder else none
  (w.note (.invoked v.id),
    { v with place := .executing (Passage.start recorder v.request now) })

/-- Asks for the claim on a key. -/
def claimKey (g : Guard) (w : World) (v : Visit) (key : String) (now : Nat) : World × Visit :=
  let (result, store) := w.store.claim key now
  let w := { w with store }
  match result with
  | .replay record =>
    let w := ((w.tell (.replaying key)).count (.idempotencyEvents .replayed)).note
      (.replayed v.id record false)
    v.answerRecord g w record now
  | .pending handle =>
    match g.inFlight with
    | .reject => v.reject g w key now
    | .wait => (w, { v with place := .waiting key handle })
  | .acquired =>
    { v with claim := some key }.execute g (w.note (.claimed v.id key)) now

/-- The idempotency key of a request: the first value of the header, if it is not empty, exactly as
it was sent; it has to be text. -/
def key? (g : Guard) (request : Request) : Except Refusal String :=
  match request.headers.get? g.keyHeader with
  | none => .error (.missingKey g.keyHeader.text)
  | some [] => .error (.missingKey g.keyHeader.text)
  | some value =>
    match Bytes.toString? value with
    | none => .error (.invalidKey g.keyHeader.text)
    | some key => .ok key

/-- How the metrics call a refused key. -/
def refusalEvent : Refusal → IdempotencyEvent
  | .invalidKey _ => .invalid
  | _ => .missing

/-- Comes to the idempotency gate. -/
def enter (g : Guard) (w : World) (v : Visit) (now : Nat) : World × Visit :=
  if g.needsKey v.policy then
    match key? g v.request with
    | .ok key => v.claimKey g w key now
    | .error refusal =>
      let path := v.request.uri.path
      let w := ((w.tell (.keyRefused path g.keyHeader.text refusal.message)).count
        (.idempotencyEvents (refusalEvent refusal))).note (.keyRefused v.id)
      v.answerResponse g w (refusal.toResponse path) now
  else v.execute g w now

/-- **A request arrives** at the breaker gate. -/
def arrive (g : Guard) (w : World) (id : Nat) (request : Request) (preset : Option RoutePolicy)
    (now : Nat) : World × Visit :=
  let policy := g.policyFor preset request
  let v : Visit :=
    { id, request, arrivedAt := now, policy, permit := none, claim := none, place := .gone }
  if g.needsPermission policy then
    let name := policy.breakerName
    let (granted, w) := w.breaker name now .acquire
    if granted then { v with permit := some name }.enter g (w.note (.granted id name)) now
    else
      let path := request.uri.path
      let w := ((w.tell (.callRejected name request.method.token path)).count
        (.breakerRejections name)).note (.denied id name)
      v.answerResponse g w ((Refusal.breakerOpen name).toResponse path) now
  else v.enter g w now

/-! ## Waiting -/

/-- **A waiting visit is looked at again,** and its time may be up. The end of the claim counts
first: a record is replayed, and a claim that was given up is asked for again. -/
def resume (g : Guard) (w : World) (v : Visit) (timedOut : Bool) (now : Nat) : World × Visit :=
  match v.place with
  | .waiting key handle =>
    match w.store.ending? handle with
    | some (.completed record) =>
      let w := ((w.tell (.replayingAfterWait key)).count (.idempotencyEvents .waited)).note
        (.replayed v.id record true)
      v.answerRecord g w record now
    | some .released => v.claimKey g w key now
    | none => if timedOut then v.reject g w key now else (w, v)
  | _ => (w, v)

/-! ## At the handler -/

/-- **The handler polls the request body.** -/
def readRequest (v : Visit) : Poll × Visit :=
  match v.place with
  | .executing passage =>
    let (result, passage) := passage.pollRequest
    (result, { v with place := .executing passage })
  | _ => (.ended, v)

/-- **The handler answers or fails.** -/
def reply (g : Guard) (w : World) (v : Visit) (result : Except String Response) (now : Nat) :
    World × Visit :=
  match v.place with
  | .executing passage =>
    match result with
    | .error error =>
      let w := (w.note (.returned v.id (.error error))).emit (passage.failed g.recorder error)
      let (w, v) := v.unclaim w
      let (w, v) := v.settle w true now
      (w, { v with place := .failed error })
    | .ok response =>
      let w := w.note (.returned v.id (.ok (response.status, response.headers)))
      let passage := passage.respond g.recorder response
      match v.claim with
      | none => v.answer g w response.status response.headers passage now
      | some key =>
        (w, { v with
          place := .storing key response.status response.headers passage Reading.start })
  | _ => (w, v)

/-! ## Storing the response -/

/-- **One poll of a response that is to be stored.** At its end the record is stored and the client
gets the response of the record; trailers are not part of it. -/
def absorb (g : Guard) (w : World) (v : Visit) (now : Nat) : World × Visit :=
  match v.place with
  | .storing key status headers passage reading =>
    let (result, emission, passage) := passage.pollResponse g.recorder now
    let w := w.emit emission
    let reading := reading.add result
    match result with
    | .failure error =>
      let refusal := Refusal.captureFailed error
      let (w, v) := v.unclaim (w.tell (.captureFailed key refusal.message))
      v.answerResponse g w (refusal.toResponse v.request.uri.path) now
    | .ended =>
      let record := Record.ofResponse key { status, headers, body := reading.data }
      { v with claim := none }.answerRecord g (w.storeRecord v.id record now) record now
    | _ => (w, { v with place := .storing key status headers passage reading })
  | _ => (w, v)

/-! ## The client -/

/-- **The client polls the response body.** -/
def deliver (g : Guard) (w : World) (v : Visit) (now : Nat) : Poll × World × Visit :=
  match v.place with
  | .answered status headers passage =>
    let (result, emission, passage) := passage.pollResponse g.recorder now
    (result, w.emit emission, { v with place := .answered status headers passage })
  | _ => (.ended, w, v)

/-- The response body that is dropped with a visit, if there is one. -/
def droppedEmission (g : Guard) (v : Visit) (now : Nat) : Emission :=
  match v.place with
  | .storing _ _ _ passage _ => passage.dropResponse g.recorder now
  | .answered _ _ passage => passage.dropResponse g.recorder now
  | _ => .none

/-- **The visit is dropped,** wherever it stands: because the client goes away, because its time is
up, or because the response has been read as far as anybody wants. -/
def leave (g : Guard) (w : World) (v : Visit) (now : Nat) : World × Visit :=
  let w := w.emit (v.droppedEmission g now)
  let (w, v) := v.unclaim w
  let (w, v) := v.handBack w now
  (w, { v with place := .gone })

end Visit
end Gatehouse.Pipeline
