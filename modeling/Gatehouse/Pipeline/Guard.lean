/-
The gates, assembled from a configuration.

A request passes up to three layers on its way to the handler: the breaker gate outermost, then the
idempotency gate, then the recording of traffic. What is fixed about them is the guard; what changes
while requests come and go is the world (`Pipeline.World`).
-/
import Gatehouse.Config.Basic
import Gatehouse.Http.Headers
import Gatehouse.Traffic.Recorder

set_option autoImplicit false

namespace Gatehouse.Pipeline

open Gatehouse.Http Gatehouse.Routing

/-- Which layers stand before the handler. -/
structure Layers where
  breaker : Bool
  idempotency : Bool
  recording : Bool
  deriving DecidableEq, Repr

def Layers.all : Layers := { breaker := true, idempotency := true, recording := true }

/-- **Guard:** what is fixed about the gates. -/
structure Guard where
  layers : Layers
  rules : RuleSet
  /-- Whether a response with a server error counts as a failure of the breaker's call. -/
  recordServerErrors : Bool
  /-- The header that carries idempotency keys. -/
  keyHeader : HeaderName
  /-- What becomes of a request whose key is being executed. -/
  inFlight : Idempotency.InFlightPolicy
  /-- How long such a request waits, in milliseconds. -/
  waitTimeoutMs : Nat
  /-- After how many seconds a refused client is told to come back. -/
  retryAfterSecs : Nat
  recorder : Traffic.Recorder

/-- Why gates cannot be assembled. -/
inductive AssemblyError where
  /-- The routes do not make a rule set. -/
  | rules (error : RuleError)
  /-- The header for idempotency keys is none. -/
  | headerName
  deriving DecidableEq, Repr

def AssemblyError.message : AssemblyError → String
  | .rules error => "Invalid route rules: " ++ error.message
  | .headerName => "Invalid idempotency header name: invalid HTTP header name"

namespace Guard

/-- **The guard of a configuration.** -/
def assemble (c : Config) (layers : Layers) : Except AssemblyError Guard :=
  match RuleSet.ofEntries c.defaults c.routes with
  | .error error => .error (.rules error)
  | .ok rules =>
    match HeaderName.ofString? c.idempotency.headerName with
    | none => .error .headerName
    | some keyHeader =>
      .ok
        { layers, rules, keyHeader
          recordServerErrors := c.breaker.recordServerErrors
          inFlight := c.idempotency.inFlight
          waitTimeoutMs := c.idempotency.waitTimeoutMs
          retryAfterSecs := c.idempotency.retryAfterSecs
          recorder := Traffic.Recorder.ofSettings c.traffic }

/-- What the operator is told while gates are assembled. -/
def announcements (c : Config) : List Diagnostic :=
  match RuleSet.ofEntries c.defaults c.routes with
  | .error _ => []
  | .ok rules => .rulesLoaded rules.rules.length :: Traffic.Recorder.complaints c.traffic

/-- The policy of a request: one that was given to it beforehand, else the one of its route. -/
def policyFor (g : Guard) (preset : Option RoutePolicy) (request : Request) : RoutePolicy :=
  preset.getD (g.rules.resolve request.method request.uri.path)

/-- Whether a policy asks for a permission of a breaker. -/
def needsPermission (g : Guard) (policy : RoutePolicy) : Bool :=
  g.layers.breaker && policy.protectedByBreaker

/-- Whether a policy asks for an idempotency key. -/
def needsKey (g : Guard) (policy : RoutePolicy) : Bool := g.layers.idempotency && policy.idempotent

/-- Whether an exchange is recorded. -/
def records (g : Guard) (request : Request) : Bool :=
  g.layers.recording && g.recorder.shouldRecord request.method request.uri.path

/-- Whether a response with a status counts as a failure of the breaker's call. -/
def countsAsFailure (g : Guard) (status : Status) : Bool :=
  g.recordServerErrors && status.isServerError

end Guard
end Gatehouse.Pipeline
