/-
Which configurations are sound.

Validation looks at the values of a configuration that has been read, and lists every fault it
finds, in a fixed order; the faults of named breakers come in the order of the names. A
configuration without faults is accepted.
-/
import Gatehouse.Config.Basic
import Gatehouse.Config.SocketAddress

set_option autoImplicit false

namespace Gatehouse.Config

open Gatehouse.Number Gatehouse.Routing Gatehouse.Http Gatehouse.Config.SocketAddress

/-- What can be wrong with the settings of a breaker. -/
inductive BreakerFault where
  | failureRateThreshold
  | slidingWindowSize
  | minimumNumberOfCalls
  | permittedCallsInHalfOpenState
  deriving DecidableEq, Repr

def BreakerFault.field : BreakerFault → String
  | .failureRateThreshold => "failure_rate_threshold"
  | .slidingWindowSize => "sliding_window_size"
  | .minimumNumberOfCalls => "minimum_number_of_calls"
  | .permittedCallsInHalfOpenState => "permitted_calls_in_half_open_state"

def BreakerFault.message : BreakerFault → String
  | .failureRateThreshold => "must be in (0, 100]"
  | _ => "must be greater than 0"

/-- **Fault** of a configuration. -/
inductive Fault where
  /-- The address to listen on is none. -/
  | bindAddress (text : String)
  /-- A request would have no time at all. -/
  | requestTimeout
  /-- The routes do not make a rule set. -/
  | routes (error : RuleError)
  /-- A fault of the standard breaker settings, or of those of a name. -/
  | breaker (name : Option String) (fault : BreakerFault)
  /-- The header for idempotency keys is none. -/
  | headerName (text : String)
  /-- Masked values would be empty. -/
  | maskValue
  /-- A filter of included or excluded requests does not begin with a slash. -/
  | filterPattern (excluded : Bool) (index : Nat)
  /-- The address for metrics is none. -/
  | metricsAddress (text : String)
  deriving DecidableEq, Repr

namespace Fault

def field : Fault → String
  | .bindAddress _ => "listener.bind_address"
  | .requestTimeout => "timeouts.request_secs"
  | .routes _ => "routes"
  | .breaker none fault => "circuit_breaker.defaults." ++ fault.field
  | .breaker (some name) fault => "circuit_breaker.instances." ++ name ++ "." ++ fault.field
  | .headerName _ => "idempotency.header_name"
  | .maskValue => "logging.obfuscate.mask_value"
  | .filterPattern excluded index =>
    "logging.http." ++ (if excluded then "exclude" else "include") ++ "[" ++ toString index
      ++ "].path_pattern"
  | .metricsAddress _ => "observability.metrics_address"

def message : Fault → String
  | .bindAddress text => "'" ++ text ++ "' is not a socket address"
  | .requestTimeout => "must be greater than 0"
  | .routes error => error.message
  | .breaker _ fault => fault.message
  | .headerName text => "'" ++ text ++ "' is not a valid header name"
  | .maskValue => "must not be empty"
  | .filterPattern _ _ => "must start with '/'"
  | .metricsAddress text => "'" ++ text ++ "' is not a socket address"

end Fault

/-- A fault, if a condition does not hold. -/
def faultUnless {α : Type} (condition : Bool) (fault : α) : List α :=
  if condition then [] else [fault]

def breakerFaults (s : Breaker.Settings) : List BreakerFault :=
  faultUnless ((BinaryFormat.single.ofNat 0).lt s.failureRateThreshold
      && s.failureRateThreshold.le (BinaryFormat.single.ofNat 100)) .failureRateThreshold
  ++ faultUnless (0 < s.slidingWindowSize) .slidingWindowSize
  ++ faultUnless (0 < s.minimumNumberOfCalls) .minimumNumberOfCalls
  ++ faultUnless (0 < s.permittedCallsInHalfOpenState) .permittedCallsInHalfOpenState

/-- The faults of filters, the first of which has the given number. -/
def filterFaults (excluded : Bool) (index : Nat) : List Traffic.PathFilter → List Fault
  | [] => []
  | filter :: rest =>
    faultUnless (filter.pathPattern.toList.head? == some '/') (.filterPattern excluded index)
      ++ filterFaults excluded (index + 1) rest

/-- The fault of the routes, if they do not make a rule set. -/
def routeFaults (defaults : RoutePolicy) (routes : List RouteEntry) : List Fault :=
  match RuleSet.ofEntries defaults routes with
  | .ok _ => []
  | .error error => [.routes error]

/-- **All faults of a configuration.** -/
def faults (c : Config) : List Fault :=
  faultUnless (isSocketAddress c.bindAddress) (.bindAddress c.bindAddress)
  ++ faultUnless (0 < c.requestTimeoutSecs) .requestTimeout
  ++ routeFaults c.defaults c.routes
  ++ (breakerFaults c.breaker.defaults).map (.breaker none)
  ++ (c.breaker.instances.mergeSort fun a b => decide (a.1 ≤ b.1)).flatMap (fun entry =>
      (breakerFaults entry.2).map (.breaker (some entry.1)))
  ++ faultUnless (HeaderName.ofString? c.idempotency.headerName).isSome
      (.headerName c.idempotency.headerName)
  ++ faultUnless (!c.traffic.masking.maskValue.isEmpty) .maskValue
  ++ filterFaults false 0 c.traffic.recording.included
  ++ filterFaults true 0 c.traffic.recording.excluded
  ++ faultUnless (!c.observability.metricsEnabled || isSocketAddress c.observability.metricsAddress)
      (.metricsAddress c.observability.metricsAddress)

end Gatehouse.Config
