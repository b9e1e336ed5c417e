/-
The whole configuration, and how it is read from a document tree.

Every absent field takes its standard value and unknown fields are ignored, so the empty
document is the standard configuration. Reading checks the kind of every value;
`Config.Validation` checks the values.
-/
import Gatehouse.Breaker.Registry
import Gatehouse.Config.Node
import Gatehouse.Idempotency.Settings
import Gatehouse.Routing.Rules
import Gatehouse.Traffic.Settings

set_option autoImplicit false

namespace Gatehouse

open Gatehouse.Routing

namespace Config

/-! ## Surroundings of the gates -/

/-- How diagnostics are written. -/
inductive LogFormat where
  | json
  | pretty
  deriving DecidableEq, Repr

def LogFormat.label : LogFormat → String
  | .json => "json"
  | .pretty => "pretty"

def LogFormat.all : List LogFormat := [.json, .pretty]

/-- Settings of diagnostics and metrics. -/
structure Observability where
  /-- Which diagnostics are written. -/
  logLevel : String
  logFormat : LogFormat
  metricsEnabled : Bool
  metricsAddress : String
  deriving DecidableEq, Repr

/-- The settings of an empty document. -/
def Observability.standard : Observability :=
  { logLevel := "info", logFormat := .pretty, metricsEnabled := false,
    metricsAddress := "0.0.0.0:9090" }

end Config

/-- **Configuration** of the service. -/
structure Config where
  bindAddress : String
  /-- How long a request may take in all, in seconds. -/
  requestTimeoutSecs : Nat
  /-- The policy of requests that no route matches. -/
  defaults : RoutePolicy
  routes : List RouteEntry
  breaker : Breaker.BreakerConfig
  idempotency : Idempotency.Settings
  traffic : Traffic.Settings
  observability : Config.Observability
  deriving DecidableEq, Repr

namespace Config

/-- The configuration where nothing is said. -/
def standard : Config :=
  { bindAddress := "0.0.0.0:8080", requestTimeoutSecs := 30, defaults := RoutePolicy.fresh,
    routes := [], breaker := Breaker.BreakerConfig.standard,
    idempotency := Idempotency.Settings.standard, traffic := Traffic.Settings.standard,
    observability := Observability.standard }

/-! ## Reading -/

def readListener (node : Node) : Option String := do
  let fields ← node.fields? ["bind_address"]
  field? fields "bind_address" Node.text? standard.bindAddress

def readTimeouts (node : Node) : Option Nat := do
  let fields ← node.fields? ["request_secs"]
  field? fields "request_secs" Node.nat? standard.requestTimeoutSecs

def readPolicy (node : Node) : Option RoutePolicy := do
  let fields ← node.fields? ["breaker_name", "protected_by_breaker", "idempotent"]
  return {
    breakerName := ← field? fields "breaker_name" Node.text? RoutePolicy.fresh.breakerName
    protectedByBreaker := ← field? fields "protected_by_breaker" Node.bool?
      RoutePolicy.fresh.protectedByBreaker
    idempotent := ← field? fields "idempotent" Node.bool? RoutePolicy.fresh.idempotent }

def readRoute (node : Node) : Option RouteEntry := do
  let fields ← node.fields? ["any_request", "method", "patterns", "permit_all", "breaker_name",
    "protected_by_breaker", "idempotent"]
  return {
    anyRequest := ← field? fields "any_request" Node.bool? false
    method := ← field? fields "method" (Node.optional? Node.text?) none
    patterns := ← field? fields "patterns" (Node.list? Node.text?) []
    permitAll := ← field? fields "permit_all" Node.bool? false
    breakerName := ← field? fields "breaker_name" (Node.optional? Node.text?) none
    protectedByBreaker := ← field? fields "protected_by_breaker" (Node.optional? Node.bool?) none
    idempotent := ← field? fields "idempotent" (Node.optional? Node.bool?) none }

def readBreakerSettings (node : Node) : Option Breaker.Settings := do
  let d := Breaker.Settings.standard
  let fields ← node.fields? ["failure_rate_threshold", "sliding_window_size",
    "minimum_number_of_calls", "wait_duration_in_open_state_ms",
    "permitted_calls_in_half_open_state"]
  return {
    failureRateThreshold := ← field? fields "failure_rate_threshold" Node.single?
      d.failureRateThreshold
    slidingWindowSize := ← field? fields "sliding_window_size" Node.nat? d.slidingWindowSize
    minimumNumberOfCalls := ← field? fields "minimum_number_of_calls" Node.nat?
      d.minimumNumberOfCalls
    waitDurationMs := ← field? fields "wait_duration_in_open_state_ms" Node.nat? d.waitDurationMs
    permittedCallsInHalfOpenState := ← field? fields "permitted_calls_in_half_open_state" Node.nat?
      d.permittedCallsInHalfOpenState }

def readBreaker (node : Node) : Option Breaker.BreakerConfig := do
  let d := Breaker.BreakerConfig.standard
  let fields ← node.fields? ["record_server_errors", "defaults", "instances"]
  return {
    recordServerErrors := ← field? fields "record_server_errors" Node.bool? d.recordServerErrors
    defaults := ← field? fields "defaults" readBreakerSettings d.defaults
    instances := ← field? fields "instances" (Node.table? readBreakerSettings) d.instances }

def readIdempotency (node : Node) : Option Idempotency.Settings := do
  let d := Idempotency.Settings.standard
  let fields ← node.fields? ["header_name", "in_flight", "wait_timeout_ms", "retry_after_secs",
    "ttl_secs"]
  return {
    headerName := ← field? fields "header_name" Node.text? d.headerName
    inFlight := ← field? fields "in_flight"
      (Node.choice? Idempotency.InFlightPolicy.label Idempotency.InFlightPolicy.all) d.inFlight
    waitTimeoutMs := ← field? fields "wait_timeout_ms" Node.nat? d.waitTimeoutMs
    retryAfterSecs := ← field? fields "retry_after_secs" Node.nat? d.retryAfterSecs
    ttlSecs := ← field? fields "ttl_secs" (Node.optional? Node.nat?) d.ttlSecs }

def readPathFilter (node : Node) : Option Traffic.PathFilter := do
  let d := Traffic.PathFilter.blank
  let fields ← node.fields? ["path_pattern", "methods"]
  return {
    pathPattern := ← field? fields "path_pattern" Node.text? d.pathPattern
    methods := ← field? fields "methods" (Node.list? Node.text?) d.methods }

def readRecording (node : Node) : Option Traffic.RecordingSettings := do
  let d := Traffic.RecordingSettings.standard
  let fields ← node.fields? ["enabled", "level", "max_body_bytes", "pretty", "include", "exclude"]
  return {
    enabled := ← field? fields "enabled" Node.bool? d.enabled
    level := ← field? fields "level" (Node.choice? Traffic.Level.label Traffic.Level.all) d.level
    maxBodyBytes := ← field? fields "max_body_bytes" Node.nat? d.maxBodyBytes
    pretty := ← field? fields "pretty" Node.bool? d.pretty
    included := ← field? fields "include" (Node.list? readPathFilter) d.included
    excluded := ← field? fields "exclude" (Node.list? readPathFilter) d.excluded }

def readMasking (node : Node) : Option Traffic.MaskingSettings := do
  let d := Traffic.MaskingSettings.standard
  let fields ← node.fields? ["enabled", "mask_value", "headers", "parameters", "json_body_fields"]
  return {
    enabled := ← field? fields "enabled" Node.bool? d.enabled
    maskValue := ← field? fields "mask_value" Node.text? d.maskValue
    headers := ← field? fields "headers" (Node.list? Node.text?) d.headers
    parameters := ← field? fields "parameters" (Node.list? Node.text?) d.parameters
    jsonBodyFields := ← field? fields "json_body_fields" (Node.list? Node.text?) d.jsonBodyFields }

def readTraffic (node : Node) : Option Traffic.Settings := do
  let d := Traffic.Settings.standard
  let fields ← node.fields? ["http", "obfuscate"]
  return {
    recording := ← field? fields "http" readRecording d.recording
    masking := ← field? fields "obfuscate" readMasking d.masking }

def readObservability (node : Node) : Option Observability := do
  let d := Observability.standard
  let fields ← node.fields? ["log_level", "log_format", "metrics_enabled", "metrics_address"]
  return {
    logLevel := ← field? fields "log_level" Node.text? d.logLevel
    logFormat := ← field? fields "log_format" (Node.choice? LogFormat.label LogFormat.all)
      d.logFormat
    metricsEnabled := ← field? fields "metrics_enabled" Node.bool? d.metricsEnabled
    metricsAddress := ← field? fields "metrics_address" Node.text? d.metricsAddress }

/-- **The configuration of a document.** -/
def ofNode? (node : Node) : Option Config := do
  let d := standard
  let fields ← node.fields? ["listener", "timeouts", "defaults", "routes", "circuit_breaker",
    "idempotency", "logging", "observability"]
  return {
    bindAddress := ← field? fields "listener" readListener d.bindAddress
    requestTimeoutSecs := ← field? fields "timeouts" readTimeouts d.requestTimeoutSecs
    defaults := ← field? fields "defaults" readPolicy d.defaults
    routes := ← field? fields "routes" (Node.list? readRoute) d.routes
    breaker := ← field? fields "circuit_breaker" readBreaker d.breaker
    idempotency := ← field? fields "idempotency" readIdempotency d.idempotency
    traffic := ← field? fields "logging" readTraffic d.traffic
    observability := ← field? fields "observability" readObservability d.observability }

end Config
end Gatehouse
