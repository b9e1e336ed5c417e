/-
Masking of sensitive values before traffic is written down.

A masker works on the three parts of a message that can hold secrets: header values (by header
name), query parameters (by decoded name) and JSON bodies (by path). It never fails: what it cannot
read as the expected format it leaves as it is. A body that was not copied whole cannot be read, so
it is dropped whenever there are paths to mask. A masker without any names or paths changes nothing.
-/
import Gatehouse.Json.Parser
import Gatehouse.Json.Printer
import Gatehouse.Text.FormEncoding
import Gatehouse.Traffic.Exchange
import Gatehouse.Traffic.JsonPath
import Gatehouse.Traffic.Settings

set_option autoImplicit false

namespace Gatehouse.Traffic

structure Masker where
  /-- What stands in the place of a masked value. -/
  mask : String
  /-- Header names, in ASCII lower case. -/
  headers : List String
  /-- Parameter names, in lower case. -/
  parameters : List String
  /-- Paths into JSON bodies. -/
  paths : List JsonPath
  deriving DecidableEq, Repr

namespace Masker

def off : Masker := { mask := "", headers := [], parameters := [], paths := [] }

/-- The masker of some settings. A configured path without steps is left out. -/
def ofSettings (s : MaskingSettings) : Masker :=
  if s.enabled then
    { mask := s.maskValue
      headers := s.headers.map asciiLowercase
      parameters := s.parameters.map lowercase
      paths := s.jsonBodyFields.filterMap JsonPath.ofString? }
  else off

/-! ## Headers -/

/-- Masked headers, given the sensitive names that have already come. -/
def maskHeadersFrom (m : Masker) (seen : List String) :
    List (String × String) → List (String × String)
  | [] => []
  | (name, value) :: rest =>
    let lower := asciiLowercase name
    if m.headers.contains lower then
      if seen.contains lower then maskHeadersFrom m seen rest
      else (name, m.mask) :: maskHeadersFrom m (lower :: seen) rest
    else (name, value) :: maskHeadersFrom m seen rest

/-- **Masks headers:** a sensitive name is kept once, at its first place, with the mask as its only
value. -/
def maskHeaders (m : Masker) (headers : List (String × String)) : List (String × String) :=
  m.maskHeadersFrom [] headers

/-! ## Query parameters -/

/-- Whether the name in front of a query pair, as it is written, is sensitive. -/
def isSensitive (m : Masker) (rawName : List Char) : Bool :=
  !rawName.isEmpty
    && m.parameters.contains (lowercase (FormEncoding.decode (String.ofList rawName)))

/-- One query pair, masked if its name is sensitive. -/
def maskPair (m : Masker) (pair : List Char) : List Char :=
  let rawName := pair.takeWhile (· ≠ '=')
  if m.isSensitive rawName then rawName ++ '=' :: (FormEncoding.encode m.mask).toList else pair

/-- **Masks the query of a target.** Path, fragment, names and order stay as they are written. -/
def maskUri (m : Masker) (uri : String) : String :=
  if m.parameters.isEmpty then uri
  else
    let text := uri.toList
    let main := text.takeWhile (· ≠ '#')
    let fragment := text.dropWhile (· ≠ '#')
    match main.dropWhile (· ≠ '?') with
    | [] => uri
    | _ :: query =>
      String.ofList (main.takeWhile (· ≠ '?') ++ '?' ::
        List.intercalate ['&'] ((query.splitOn '&').map m.maskPair) ++ fragment)

/-! ## Bodies -/

/-- A JSON document with every path masked, one after the other. -/
def maskDocument (m : Masker) (document : Json) : Json :=
  m.paths.foldl (fun document path => path.mask m.mask document) document

/-- **Masks a body.** A JSON document is written anew on one line; anything else stays. -/
def maskBody (m : Masker) (body : Bytes) : Bytes :=
  if m.paths.isEmpty || body.isEmpty then body
  else match Json.ofBytes? body with
    | none => body
    | some document => Bytes.ofString (m.maskDocument document).render

/-! ## Exchanges -/

/-- **Masks one side of an exchange.** -/
def maskExchange (m : Masker) (e : Exchange) : Exchange :=
  { e with
    headers := m.maskHeaders e.headers
    uri := m.maskUri e.uri
    body := if e.truncated && !m.paths.isEmpty then [] else m.maskBody e.body }

end Masker
end Gatehouse.Traffic
