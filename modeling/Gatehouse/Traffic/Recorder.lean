/-
Which exchanges are recorded, and how much of them.

A request is recorded when recording is on, one of the included filters matches it (or there are
none) and none of the excluded ones does. Below full detail nothing of a request body is copied; a
response body is copied at full detail and, above level none, for most error statuses.
-/
import Gatehouse.Diagnostic
import Gatehouse.Http.Message
import Gatehouse.Routing.Pattern
import Gatehouse.Traffic.Masking

set_option autoImplicit false

namespace Gatehouse.Traffic

open Gatehouse.Http Gatehouse.Routing

/-- A filter on requests. -/
structure RequestFilter where
  pattern : PathPattern
  /-- The methods the filter is for; none listed means every method. -/
  methods : List Method
  deriving DecidableEq, Repr

namespace RequestFilter

/-- The filter of some settings. What is no method is left out. -/
def ofSettings (f : PathFilter) : RequestFilter :=
  { pattern := PathPattern.ofString f.pathPattern
    methods := f.methods.filterMap Method.ofConfigured? }

/-- What the operator is told about methods that are left out. -/
def complaints (f : PathFilter) : List Diagnostic :=
  (f.methods.filter fun m => (Method.ofConfigured? m).isNone).map fun m =>
    .methodIgnored m f.pathPattern

end RequestFilter

def RequestFilter.matches (f : RequestFilter) (method : Method) (path : String) : Bool :=
  (f.methods.isEmpty || f.methods.contains method) && f.pattern.matches path

structure Recorder where
  enabled : Bool
  level : Level
  /-- How many bytes of each body are copied at most. -/
  maxBodyBytes : Nat
  pretty : Bool
  included : List RequestFilter
  excluded : List RequestFilter
  masker : Masker
  deriving DecidableEq, Repr

/-- A record, with the origin of its exchange. -/
structure TrafficRecord where
  origin : Origin
  text : String
  deriving DecidableEq, Repr

namespace Recorder

def ofSettings (s : Settings) : Recorder :=
  { enabled := s.recording.enabled
    level := s.recording.level
    maxBodyBytes := s.recording.maxBodyBytes
    pretty := s.recording.pretty
    included := s.recording.included.map RequestFilter.ofSettings
    excluded := s.recording.excluded.map RequestFilter.ofSettings
    masker := Masker.ofSettings s.masking }

/-- What the operator is told about the settings. -/
def complaints (s : Settings) : List Diagnostic :=
  (s.recording.included ++ s.recording.excluded).flatMap RequestFilter.complaints

/-- **Whether an exchange is recorded at all.** -/
def shouldRecord (r : Recorder) (method : Method) (path : String) : Bool :=
  r.enabled && r.level != .none
    && (r.included.isEmpty || r.included.any fun f => f.matches method path)
    && !r.excluded.any fun f => f.matches method path

/-! ## How much of an exchange is recorded -/

def includesHeaders (r : Recorder) : Bool := Level.headers.rank ≤ r.level.rank

def includesRequestBody (r : Recorder) : Bool := r.level == .full

/-- Statuses whose bodies are never recorded: they are about credentials and quotas. -/
def withheldStatuses : List Status :=
  [Status.unauthorized, Status.forbidden, Status.tooManyRequests]

def includesResponseBody (r : Recorder) (status : Status) : Bool :=
  if r.level = .none then false
  else if withheldStatuses.contains status then false
  else if status.isClientError || status.isServerError then true
  else r.level == .full

/-- How many bytes of a request body are copied. -/
def requestLimit (r : Recorder) : Nat := if r.includesRequestBody then r.maxBodyBytes else 0

/-- How many bytes of a response body are copied. -/
def responseLimit (r : Recorder) (status : Status) : Nat :=
  if r.includesResponseBody status then r.maxBodyBytes else 0

/-- **The record of one side,** masked. -/
def write (r : Recorder) (side : Exchange) (includeBody : Bool) : TrafficRecord :=
  { origin := side.origin
    text := (r.masker.maskExchange side).record r.includesHeaders includeBody r.pretty }

end Recorder

end Gatehouse.Traffic
