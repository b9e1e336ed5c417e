/-
What the gates emit while they work: diagnostics, traffic records and metrics.
-/
import Gatehouse.Traffic.Recording

set_option autoImplicit false

namespace Gatehouse

open Gatehouse.Traffic

/-- What can happen to a request at the idempotency gate. -/
inductive IdempotencyEvent where
  | missing
  | invalid
  | replayed
  | waited
  | rejected
  | executed
  deriving DecidableEq, Repr

def IdempotencyEvent.label : IdempotencyEvent → String
  | .missing => "missing"
  | .invalid => "invalid"
  | .replayed => "replayed"
  | .waited => "waited"
  | .rejected => "rejected"
  | .executed => "executed"

/-- **Counter** of the metrics, with its labels. -/
inductive Counter where
  /-- Settled calls of a breaker. -/
  | breakerCalls (breaker : String) (failed : Bool)
  /-- Measured durations of a breaker's calls. -/
  | breakerDurations (breaker : String)
  /-- Requests that a breaker refused. -/
  | breakerRejections (breaker : String)
  | idempotencyEvents (event : IdempotencyEvent)
  /-- Traffic records written. -/
  | trafficLogged (origin : Origin)
  deriving DecidableEq, Repr

namespace Counter

def name : Counter → String
  | .breakerCalls .. => "guard_breaker_calls_total"
  | .breakerDurations .. => "guard_breaker_call_duration_seconds"
  | .breakerRejections .. => "guard_breaker_rejections_total"
  | .idempotencyEvents .. => "guard_idempotency_events_total"
  | .trafficLogged .. => "guard_traffic_logged_total"

def labels : Counter → List (String × String)
  | .breakerCalls breaker failed =>
    [("breaker", breaker), ("outcome", if failed then "error" else "success")]
  | .breakerDurations breaker => [("breaker", breaker)]
  | .breakerRejections breaker => [("breaker", breaker)]
  | .idempotencyEvents event => [("event", event.label)]
  | .trafficLogged origin => [("source", origin.label)]

end Counter

/-- **Outputs** since they were last looked at. -/
structure Outputs where
  diagnostics : List Diagnostic
  records : List TrafficRecord
  /-- Counters above zero. -/
  metrics : List (Counter × Nat)
  deriving Repr

namespace Outputs

def empty : Outputs := { diagnostics := [], records := [], metrics := [] }

/-- One more on a counter. -/
def bump (counter : Counter) : List (Counter × Nat) → List (Counter × Nat)
  | [] => [(counter, 1)]
  | (c, n) :: rest => if c = counter then (c, n + 1) :: rest else (c, n) :: bump counter rest

def count (o : Outputs) (counter : Counter) : Outputs :=
  { o with metrics := bump counter o.metrics }

def value (o : Outputs) (counter : Counter) : Nat := (o.metrics.lookup counter).getD 0

/-- Tells the operator something. -/
def tell (o : Outputs) (events : List Diagnostic) : Outputs :=
  { o with diagnostics := o.diagnostics ++ events }

/-- Writes traffic records and counts them. -/
def writeRecords (o : Outputs) (records : List TrafficRecord) : Outputs :=
  records.foldl
    (fun o r => { o with records := o.records ++ [r] }.count (.trafficLogged r.origin)) o

/-- Takes in what a recorded exchange emits. -/
def emit (o : Outputs) (e : Emission) : Outputs := (o.tell e.diagnostics).writeRecords e.records

end Outputs
end Gatehouse
