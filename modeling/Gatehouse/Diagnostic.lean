/-
Diagnostics: what the library tells an operator about itself while it works.

Each kind of event is a constructor with exactly the data it shows; `level`, `message` and `fields`
say how it is shown.
-/
import Gatehouse.Breaker.Basic
import Gatehouse.Http.Status
import Gatehouse.Traffic.Tee

set_option autoImplicit false

namespace Gatehouse

open Gatehouse.Http Gatehouse.Breaker Gatehouse.Traffic

/-- How grave an event is. -/
inductive Severity where
  | debug
  | info
  | warn
  deriving DecidableEq, Repr

def Severity.label : Severity → String
  | .debug => "DEBUG"
  | .info => "INFO"
  | .warn => "WARN"

inductive Diagnostic where
  /-- A rule set was built. -/
  | rulesLoaded (count : Nat)
  /-- A logging filter names something that is no method. -/
  | methodIgnored (method pattern : String)
  | breakerCreated (breaker : String)
  | breakerOpened (breaker : String) (former : State)
  | breakerHalfOpen (breaker : String)
  | breakerClosed (breaker : String)
  /-- A breaker refused a request. -/
  | callRejected (breaker method path : String)
  /-- A permitted call failed, after some milliseconds. -/
  | failureRecorded (breaker : String) (elapsedMs : Nat)
  /-- A permitted call was cancelled. -/
  | permissionReleased (breaker : String)
  /-- A request on an idempotent route has no usable key. -/
  | keyRefused (path header error : String)
  /-- A stored response is replayed. -/
  | replaying (key : String)
  /-- A response is replayed to a request that waited for it. -/
  | replayingAfterWait (key : String)
  /-- A request is refused because its key is being executed. -/
  | keyInProgress (key : String)
  /-- The response of an idempotent execution could not be read. -/
  | captureFailed (key error : String)
  | claimReleased (key : String)
  | responseStored (key : String) (status : Status)
  /-- A response body was not read to its end. -/
  | bodyEndedEarly (uri : String) (outcome : BodyOutcome)
  /-- A recorded call failed before there was a response. -/
  | exchangeFailed (uri error : String)
  | outboundFailed (error : String)
  deriving DecidableEq, Repr

namespace Diagnostic

def severity : Diagnostic → Severity
  | .breakerOpened .. | .callRejected .. | .captureFailed .. | .methodIgnored ..
    | .outboundFailed .. =>
    .warn
  | .breakerHalfOpen .. | .breakerClosed .. | .keyInProgress .. => .info
  | _ => .debug

def message : Diagnostic → String
  | .rulesLoaded .. => "Route rules loaded"
  | .methodIgnored .. => "Ignoring invalid method in logging rule"
  | .breakerCreated .. => "Creating circuit breaker"
  | .breakerOpened .. => "Circuit breaker opened"
  | .breakerHalfOpen .. => "Circuit breaker half-open, admitting trial calls"
  | .breakerClosed .. => "Circuit breaker closed"
  | .callRejected .. => "Circuit breaker rejected request"
  | .failureRecorded .. => "Recorded downstream failure"
  | .permissionReleased .. => "Call cancelled, releasing permission"
  | .keyRefused .. => "Rejected idempotency key"
  | .replaying .. => "Replaying stored response"
  | .replayingAfterWait .. => "In-flight request finished, replaying"
  | .keyInProgress .. => "Idempotency key already in progress"
  | .captureFailed .. => "Could not record response"
  | .claimReleased .. => "Releasing idempotency claim"
  | .responseStored .. => "Stored idempotent response"
  | .bodyEndedEarly .. => "Response body ended early, flushing partial capture"
  | .exchangeFailed .. => "Exchange failed before a response"
  | .outboundFailed .. => "Outbound request failed"

/-- The name of the one field that holds a running time. -/
def elapsedField : String := "elapsed_ms"

/-- The data of the event, as named texts. -/
def fields : Diagnostic → List (String × String)
  | .rulesLoaded count => [("rules", toString count)]
  | .methodIgnored method pattern => [("method", method), ("pattern", pattern)]
  | .breakerCreated breaker => [("breaker", breaker)]
  | .breakerOpened breaker former => [("breaker", breaker), ("from", former.label)]
  | .breakerHalfOpen breaker => [("breaker", breaker)]
  | .breakerClosed breaker => [("breaker", breaker)]
  | .callRejected breaker method path =>
    [("breaker", breaker), ("method", method), ("path", path)]
  | .failureRecorded breaker elapsedMs =>
    [("breaker", breaker), (elapsedField, toString elapsedMs)]
  | .permissionReleased breaker => [("breaker", breaker)]
  | .keyRefused path header error => [("path", path), ("header", header), ("error", error)]
  | .replaying key => [("key", key)]
  | .replayingAfterWait key => [("key", key)]
  | .keyInProgress key => [("key", key)]
  | .captureFailed key error => [("key", key), ("error", error)]
  | .claimReleased key => [("key", key)]
  | .responseStored key status => [("key", key), ("status", status.display)]
  | .bodyEndedEarly uri outcome => [("uri", uri), ("outcome", outcome.label)]
  | .exchangeFailed uri error => [("uri", uri), ("error", error)]
  | .outboundFailed error => [("error", error)]

end Diagnostic

/-- What the operator is told when a breaker goes from one state to another. -/
def Breaker.announce (name : String) (former latter : State) : List Diagnostic :=
  if former = latter then []
  else match latter with
    | .opened => [.breakerOpened name former]
    | .halfOpen => [.breakerHalfOpen name]
    | .closed => [.breakerClosed name]

end Gatehouse
