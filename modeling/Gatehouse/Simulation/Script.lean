/-
What happens in a simulation: a request, what the handler makes of it, and how
patient the client is.
-/
import Gatehouse.Http.Reading
import Gatehouse.Routing.Policy
import Gatehouse.Service

set_option autoImplicit false

namespace Gatehouse.Simulation

open Gatehouse.Http Gatehouse.Routing

/-- What a handler answers. -/
structure HandlerAnswer where
  status : Status
  headers : Headers
  /-- The body, or the request body as far as it was read. -/
  body : Option Body
  /-- Whether a header tells which call of the handler this is. -/
  numbered : Bool
  deriving DecidableEq, Repr

/-- **What the handler does with one call.** -/
structure Reply where
  /-- Whether it reads the request body first. -/
  reads : Bool
  /-- How long it takes after that, in milliseconds; without a value it never answers. -/
  delay : Option Nat
  /-- A failure, or an answer. -/
  result : Except String HandlerAnswer

/-- The header that tells which call of the handler an answer is from. -/
def callHeader : HeaderName := ⟨"x-call"⟩

/-- The response of the call with a number, when this much of the request body was read. -/
def HandlerAnswer.toResponse (a : HandlerAnswer) (read : Bytes) (call : Nat) : Response :=
  { status := a.status
    headers :=
      if a.numbered then a.headers.append callHeader (Bytes.ofString (toString call))
      else a.headers
    body := a.body.getD (Body.ofBytes read) }

/-- **Script** of one request. -/
structure Script where
  request : Request
  /-- A policy given to the request beforehand. -/
  preset : Option RoutePolicy
  reply : Reply
  /-- How many polls of the response body the client makes; without a value it reads everything. -/
  reads : Option Nat
  /-- After how many milliseconds the client gives up; without a value it never does. -/
  patience : Option Nat
  /-- When the request is made, in milliseconds. -/
  start : Nat

/-- The number of steps that the bodies of a script can take. -/
def Script.length (s : Script) : Nat :=
  let answered := match s.reply.result with
    | .error _ => 0
    | .ok a => (a.body.map fun b => b.pieces.length).getD 0
  s.request.body.pieces.length + 2 * answered

/-- **What became of a request.** -/
inductive Outcome where
  /-- The client got a response, and read this of its body. -/
  | response (status : Status) (headers : Headers) (body : Reading)
  /-- The handler failed, and the failure was passed on. -/
  | failed (error : String)
  /-- The client gave up. -/
  | cancelled
  deriving DecidableEq, Repr

/-- **What stands in front of the gates.** -/
inductive Front where
  /-- Nothing. -/
  | bare
  /-- A service with a limit on the time until an answer, and an id for requests without one. -/
  | service (timeoutMs : Nat) (freshId : Bytes)
  deriving DecidableEq, Repr

namespace Front

/-- The request as it reaches the gates. -/
def identified (f : Front) (request : Request) : Request :=
  match f with
  | .bare => request
  | .service _ freshId => Service.identify freshId request

/-- When the limit on the time of a request is reached, if there is a limit. -/
def deadline? (f : Front) (start : Nat) : Option Nat :=
  match f with
  | .bare => none
  | .service timeoutMs _ => some (start + timeoutMs)

/-- Whether a request is for the health page. -/
def isForHealth (f : Front) (request : Request) : Bool :=
  match f with
  | .bare => false
  | .service .. => request.uri.path == Service.healthPath

/-- What the gates get from the handler. -/
def handled (f : Front) (method : Method) (result : Except String Response) :
    Except String Response :=
  match f, result with
  | .bare, result => result
  | .service .., .ok response => .ok (Service.handlerAnswer method response)
  | .service .., .error error => .ok (Service.failureAnswer error)

/-- The headers of an answer as the client gets them. -/
def headers (f : Front) (request : Request) (headers : Headers) : Headers :=
  match f with
  | .bare => headers
  | .service .. => Service.echoId request headers

/-- Whether the client gets an answer without its body. -/
def withoutBody (f : Front) (method : Method) (status : Status) (headers : Headers)
    (size : SizeHint) : Bool :=
  match f with
  | .bare => false
  | .service .. => Service.withoutBody method status headers size

end Front
end Gatehouse.Simulation
