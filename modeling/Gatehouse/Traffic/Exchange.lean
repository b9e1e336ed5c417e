/-
One side of an exchange, as it was seen, and its record.

The record of one side is a JSON object with a fixed order of fields. The target is split for it:
the host comes from the target if it names one, otherwise from the first `host` header, and a target
that cannot be read stands as its own path. Header values are grouped under their names. A body that
is a JSON document is embedded as such, any other as text.
-/
import Gatehouse.Http.Method
import Gatehouse.Http.Status
import Gatehouse.Http.Uri
import Gatehouse.Json.Parser
import Gatehouse.Json.Printer
import Gatehouse.Text.Lowercase

set_option autoImplicit false

namespace Gatehouse.Traffic

open Gatehouse.Http

/-- Who made the request. -/
inductive Origin where
  /-- A client of this service. -/
  | inbound
  /-- This service. -/
  | outbound
  deriving DecidableEq, Repr

def Origin.label : Origin → String
  | .inbound => "inbound"
  | .outbound => "outbound"

/-- The two sides of an exchange. -/
inductive Side where
  | request
  | response
  deriving DecidableEq, Repr

def Side.label : Side → String
  | .request => "request"
  | .response => "response"

/-- **One side of an exchange.** -/
structure Exchange where
  origin : Origin
  side : Side
  method : Method
  /-- The target, as it is written. -/
  uri : String
  status : Option Status
  /-- Headers in order; a repeated name appears once for each value. -/
  headers : List (String × String)
  /-- The copied part of the body. -/
  body : Bytes
  /-- Whether the copy leaves out bytes that were read. -/
  truncated : Bool
  /-- How long the exchange took, in microseconds, if it is over. -/
  elapsedMicros : Option Nat
  requestId : Option String
  deriving DecidableEq, Repr

namespace Exchange

def hostHeader? (e : Exchange) : Option String :=
  (e.headers.find? fun h => asciiLowercase h.1 = "host").map (·.2)

/-- The host that the exchange is with. -/
def host? (e : Exchange) : Option String :=
  ((Uri.ofString? e.uri).bind Uri.host?).or e.hostHeader?

def path (e : Exchange) : String := ((Uri.ofString? e.uri).map (·.path)).getD e.uri

/-- Values under their names, each name at its first place. -/
def groupByName (headers : List (String × String)) : Table (List String) :=
  headers.foldl
    (fun groups h => Table.put h.1 ((List.lookup h.1 groups).getD [] ++ [h.2]) groups) []

/-- A body inside a record. -/
def bodyValue (body : Bytes) : Json := (Json.ofBytes? body).getD (.string (Bytes.lossy body))

/-- A field that may be missing. -/
def optionalField (name : String) : Option Json → List (String × Json)
  | none => []
  | some value => [(name, value)]

/-- The fields that only a response has. -/
def responseFields (e : Exchange) : List (String × Json) :=
  match e.side with
  | .request => []
  | .response =>
    optionalField "statusCode" (e.status.map fun s => .nat s.code)
    ++ optionalField "duration"
      (e.elapsedMicros.map fun t => .string (toString (t / 1000) ++ "ms"))

/-- **The record of one side.** -/
def toJson (e : Exchange) (includeHeaders includeBody : Bool) : Json :=
  .object (
    [("source", .string e.origin.label), ("type", .string e.side.label),
      ("method", .string e.method.token), ("uri", .string e.uri)]
    ++ optionalField "host" (e.host?.map .string)
    ++ [("path", .string e.path)]
    ++ e.responseFields
    ++ (if includeHeaders then
        [("headers",
          .object ((groupByName e.headers).map fun g => (g.1, .array (g.2.map .string))))]
      else [])
    ++ (if includeBody then
        (if e.body.isEmpty then [] else [("body", bodyValue e.body)])
        ++ (if e.truncated then [("bodyTruncated", .bool true)] else [])
      else [])
    ++ optionalField "trace" (e.requestId.map fun id => .object [("requestId", .string id)]))

/-- The record as text, on one line or with one entry a line. -/
def record (e : Exchange) (includeHeaders includeBody pretty : Bool) : String :=
  let document := e.toJson includeHeaders includeBody
  if pretty then document.renderPretty else document.render

end Exchange
end Gatehouse.Traffic
