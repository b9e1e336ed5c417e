/-
What a service adds around the gates.

Every request gets an id: the one that the client sent, or a fresh one. The answer carries it back
unless it has one of its own. Whoever has no answer in time is told so. The health page is not
behind the gates: it shows the state of every breaker, whatever that state is.

To a `HEAD` request only the head of an answer is sent, and a successful answer to
`CONNECT` has no body.
-/
import Gatehouse.Breaker.Registry
import Gatehouse.Http.Message
import Gatehouse.Json.Printer

set_option autoImplicit false

namespace Gatehouse.Service

open Gatehouse.Http Gatehouse.Breaker

/-! ## Request ids -/

/-- **Gives a request its id.** An id that the client sent is kept, and counts as assigned unless
another one is assigned already; without one the request gets the fresh id, in its headers too. -/
def identify (fresh : Bytes) (request : Request) : Request :=
  match request.headers.get? requestIdHeader with
  | some id => { request with assignedId := request.assignedId.or (some id) }
  | none =>
    { request with
      assignedId := some fresh
      headers := request.headers.append requestIdHeader fresh }

/-- **Carries the id of a request back** in the headers of its answer, unless they have one. -/
def echoId (request : Request) (headers : Headers) : Headers :=
  match headers.get? requestIdHeader, request.headers.get? requestIdHeader with
  | none, some id => headers.append requestIdHeader id
  | _, _ => headers

/-! ## Answers of the service itself -/

/-- The answer to a request whose time is up. -/
def timedOut : Response :=
  { status := Status.requestTimeout, headers := Headers.empty, body := Body.empty }

def healthPath : String := "/health"

def healthContentType : String := "application/json"

def healthDocument (states : List (String × State)) : Json :=
  .object [("status", .string "UP"),
    ("breakers", .object (states.map fun s => (s.1, .string s.2.label)))]

def healthMethods : List Method := [Method.get, Method.head]

/-- **The health page.** It can only be read. -/
def health (states : List (String × State)) (request : Request) : Response :=
  if healthMethods.contains request.method then
    { status := Status.ok
      headers := echoId request
        (Headers.empty.append contentTypeHeader (Bytes.ofString healthContentType))
      body := Body.ofString (healthDocument states).render }
  else
    let allowed := String.intercalate "," (healthMethods.map (·.token))
    { status := Status.methodNotAllowed
      headers := (echoId request Headers.empty).append allowHeader (Bytes.ofString allowed)
      body := Body.empty }

/-! ## Bodies that are not sent -/

/-- Headers that announce a body. -/
def bodyHeaders : List HeaderName := [contentLengthHeader, transferEncodingHeader]

/-- Whether the answer to a request is sent without its body: always for `HEAD`, and for a
successful `CONNECT` if the answer is not known to be without one. -/
def withoutBody (method : Method) (status : Status) (headers : Headers) (size : SizeHint) : Bool :=
  method == Method.head
    || method == Method.connect && status.isSuccess
      && (size.lower != 0 || bodyHeaders.any fun h => (headers.get? h).isSome)

/-- The answer of a handler to a request: to a `CONNECT` request it has to be sent without its body
already when the gates see it. -/
def handlerAnswer (method : Method) (response : Response) : Response :=
  if method == Method.connect
      && withoutBody method response.status response.headers response.body.sizeHint then
    { response with body := Body.empty }
  else response

/-- The answer for a handler that failed: a service has nobody to pass a failure on to. -/
def failureAnswer (error : String) : Response :=
  { status := Status.internalServerError, headers := Headers.empty, body := Body.ofString error }

end Gatehouse.Service
