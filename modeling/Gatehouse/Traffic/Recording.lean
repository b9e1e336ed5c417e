/-
The recording of one exchange.

When an exchange begins, its request is noted and the request body is put behind a tee; when there
is a response, its body is put behind a tee with a hook. The moment that hook fires (the response
body has ended, failed or been dropped) both records are written, request first, with what has been
copied of the two bodies by then. An exchange that fails before there is a response leaves the
record of the request alone. Whoever reads the bodies notices nothing of all this.

The two bodies may be of any kind, and may be read in any order.
-/
import Gatehouse.Traffic.Recorder

set_option autoImplicit false

namespace Gatehouse.Traffic

open Gatehouse.Http

/-- Diagnostics and records that leave the library together. -/
structure Emission where
  diagnostics : List Diagnostic
  records : List TrafficRecord
  deriving DecidableEq, Repr

def Emission.none : Emission := { diagnostics := [], records := [] }

/-- **What is noted of a request when its exchange begins.** -/
structure RequestNote where
  origin : Origin
  method : Method
  /-- The target, as it is written. -/
  uri : String
  headers : List (String × String)
  requestId : Option String
  /-- When the exchange began, in milliseconds. -/
  startedAt : Nat
  deriving DecidableEq, Repr

namespace RequestNote

def ofRequest (origin : Origin) (request : Request) (now : Nat) : RequestNote :=
  { origin, method := request.method, uri := request.uri.display,
    headers := request.headers.toPairs, requestId := request.id?, startedAt := now }

/-- The request side, with the copy of its body. -/
def requestSide (x : RequestNote) (copy : CaptureBuffer) : Exchange :=
  { origin := x.origin, side := .request, method := x.method, uri := x.uri, status := none,
    headers := x.headers, body := copy.data, truncated := copy.truncated, elapsedMicros := none,
    requestId := x.requestId }

/-- The response side, with the copy of its body. -/
def responseSide (x : RequestNote) (status : Status) (headers : Headers) (copy : CaptureBuffer)
    (now : Nat) : Exchange :=
  { origin := x.origin, side := .response, method := x.method, uri := x.uri, status := some status,
    headers := headers.toPairs, body := copy.data, truncated := copy.truncated,
    elapsedMicros := some ((now - x.startedAt) * 1000), requestId := x.requestId }

end RequestNote

/-- The head of a response and its body behind a tee. -/
structure RecordedResponse (τ : Type) where
  status : Status
  headers : Headers
  body : Tee τ

/-- **Recorded exchange** with bodies in states `σ` and `τ`. -/
structure RecordedExchange (σ τ : Type) where
  note : RequestNote
  request : Tee σ
  /-- The response, once there is one. -/
  response : Option (RecordedResponse τ)

namespace RecordedExchange

variable {σ τ : Type}

/-- Begins an exchange, with the request body apart from the rest of the request. -/
def start (r : Recorder) (origin : Origin) (request : Request) (body : σ) (now : Nat) :
    RecordedExchange σ τ :=
  { note := RequestNote.ofRequest origin request now, request := Tee.plain body r.requestLimit,
    response := none }

def pollRequest (src : Source σ) (x : RecordedExchange σ τ) : Poll × RecordedExchange σ τ :=
  let (result, _, request) := x.request.poll src
  (result, { x with request })

def respond (r : Recorder) (x : RecordedExchange σ τ) (status : Status) (headers : Headers)
    (body : τ) : RecordedExchange σ τ :=
  { x with response := some { status, headers, body := Tee.hooked body (r.responseLimit status) } }

/-- What is emitted when the reading of the response body is over. -/
def finished (r : Recorder) (x : RecordedExchange σ τ) (status : Status) (headers : Headers)
    (copy : CaptureBuffer) (outcome : BodyOutcome) (now : Nat) : Emission :=
  { diagnostics := if outcome = .completed then [] else [.bodyEndedEarly x.note.uri outcome]
    records :=
      [r.write (x.note.requestSide x.request.capture) r.includesRequestBody,
       r.write (x.note.responseSide status headers copy now) (r.includesResponseBody status)] }

/-- What is emitted when the hook of the response body is told something. -/
def onHook (r : Recorder) (x : RecordedExchange σ τ) (response : RecordedResponse τ)
    (outcome : Option BodyOutcome) (now : Nat) : Emission :=
  match outcome with
  | none => .none
  | some outcome => x.finished r response.status response.headers response.body.capture outcome now

/-- One poll of the response body; without a response there is nothing to read. -/
def pollResponse (r : Recorder) (src : Source τ) (x : RecordedExchange σ τ) (now : Nat) :
    Poll × Emission × RecordedExchange σ τ :=
  match x.response with
  | none => (.ended, .none, x)
  | some response =>
    let (result, outcome, body) := response.body.poll src
    let response := { response with body }
    (result, x.onHook r response outcome now, { x with response := some response })

def dropResponse (r : Recorder) (x : RecordedExchange σ τ) (now : Nat) : Emission :=
  match x.response with
  | none => .none
  | some response => x.onHook r response response.body.drop now

/-- What is emitted when the exchange fails before there is a response. -/
def failed (r : Recorder) (x : RecordedExchange σ τ) (error : String) : Emission :=
  { diagnostics := [.exchangeFailed x.note.uri error]
    records := [r.write (x.note.requestSide x.request.capture) r.includesRequestBody] }

end RecordedExchange
end Gatehouse.Traffic
