/-
Requests and responses.
-/
import Gatehouse.Http.Body
import Gatehouse.Http.Status
import Gatehouse.Http.Uri

set_option autoImplicit false

namespace Gatehouse.Http

/-- The header that carries a request's id. -/
def requestIdHeader : HeaderName := ⟨"x-request-id"⟩

def contentTypeHeader : HeaderName := ⟨"content-type"⟩

def retryAfterHeader : HeaderName := ⟨"retry-after"⟩

def allowHeader : HeaderName := ⟨"allow"⟩

def contentLengthHeader : HeaderName := ⟨"content-length"⟩

def transferEncodingHeader : HeaderName := ⟨"transfer-encoding"⟩

/-- **Request** with its body. -/
structure Request where
  method : Method
  uri : Uri
  headers : Headers
  body : Body
  /-- The id that this service has assigned to the request. -/
  assignedId : Option Bytes
  deriving DecidableEq, Repr

/-- A header value that is printable ASCII, as text. -/
def visibleText? (value : Bytes) : Option String :=
  if value.all Bytes.isVisibleAscii then Bytes.toString? value else none

/-- The id of a request for traffic records: the assigned one, else the one that the client sent.
An id that is not printable counts as none. -/
def Request.id? (r : Request) : Option String :=
  (r.assignedId.or (r.headers.get? requestIdHeader)).bind visibleText?

/-- **Response** with its body. -/
structure Response where
  status : Status
  headers : Headers
  body : Body
  deriving DecidableEq, Repr

end Gatehouse.Http
