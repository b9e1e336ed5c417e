/-
What the gates answer on their own account.

A refusal is always final: it is not passed on but turned into a response whose body is a problem
document. Failures of the handler behind the gates are no refusals and pass through unchanged.
-/
import Gatehouse.Http.Message
import Gatehouse.Json.Printer

set_option autoImplicit false

namespace Gatehouse

open Gatehouse.Http

inductive Refusal where
  /-- An idempotent route was called without a key. -/
  | missingKey (header : String)
  /-- The key is not text. -/
  | invalidKey (header : String)
  /-- The breaker of the route gave no permission. -/
  | breakerOpen (breaker : String)
  /-- Another request with the same key is being executed. -/
  | inProgress (key : String)
  /-- The response to be stored could not be read. -/
  | captureFailed (error : String)
  deriving DecidableEq, Repr

namespace Refusal

def status : Refusal → Status
  | .missingKey _ => Status.badRequest
  | .invalidKey _ => Status.badRequest
  | .breakerOpen _ => Status.serviceUnavailable
  | .inProgress _ => Status.conflict
  | .captureFailed _ => Status.badGateway

/-- A name of the kind of refusal, for programs. -/
def code : Refusal → String
  | .missingKey _ => "missing_idempotency_key"
  | .invalidKey _ => "invalid_idempotency_key"
  | .breakerOpen _ => "circuit_breaker_open"
  | .inProgress _ => "idempotency_in_progress"
  | .captureFailed _ => "response_capture_failed"

def message : Refusal → String
  | .missingKey header => "Idempotency key is missing (expected header " ++ header ++ ")"
  | .invalidKey header => "Idempotency key in header " ++ header ++ " is not valid UTF-8"
  | .breakerOpen breaker => "Circuit breaker '" ++ breaker ++ "' is open"
  | .inProgress key => "A request with idempotency key '" ++ key ++ "' is already in progress"
  | .captureFailed error => "Failed to capture downstream response: " ++ error

/-- The fields that only some kinds of refusal have. -/
def details : Refusal → List (String × Json)
  | .missingKey header => [("header", .string header)]
  | .invalidKey header => [("header", .string header)]
  | .breakerOpen breaker => [("breakerName", .string breaker)]
  | _ => []

/-- The problem document of a refusal of the request at a path. -/
def document (r : Refusal) (path : String) : Json :=
  .object (
    [("type", .string "about:blank"), ("title", .string (r.status.phrase?.getD "Error")),
      ("status", .nat r.status.code), ("detail", .string r.message), ("instance", .string path),
      ("code", .string r.code)]
    ++ r.details)

def contentType : String := "application/problem+json"

/-- **The response** to a refused request. -/
def toResponse (r : Refusal) (path : String) : Response :=
  { status := r.status
    headers := Headers.empty.append contentTypeHeader (Bytes.ofString contentType)
    body := Body.ofString (r.document path).render }

end Refusal
end Gatehouse
