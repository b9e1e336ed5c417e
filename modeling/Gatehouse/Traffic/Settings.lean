/-
Settings of traffic records: which exchanges are recorded, in how much detail, and what is masked in
them.
-/

set_option autoImplicit false

namespace Gatehouse.Traffic

/-- How much of an exchange is recorded. Each level holds what the ones before it hold. -/
inductive Level where
  /-- Nothing. -/
  | none
  /-- Method, target, status and duration. -/
  | basic
  /-- Headers too. -/
  | headers
  /-- Bodies too. -/
  | full
  deriving DecidableEq, Repr

namespace Level

def all : List Level := [.none, .basic, .headers, .full]

def label : Level → String
  | .none => "none"
  | .basic => "basic"
  | .headers => "headers"
  | .full => "full"

/-- The position of a level among all. -/
def rank : Level → Nat
  | .none => 0
  | .basic => 1
  | .headers => 2
  | .full => 3

end Level

/-- A filter on requests: a path pattern and, unless the list is empty, the methods it is for. -/
structure PathFilter where
  pathPattern : String
  methods : List String
  deriving DecidableEq, Repr

def PathFilter.blank : PathFilter := { pathPattern := "", methods := [] }

/-- Which exchanges are recorded, and how much of them. -/
structure RecordingSettings where
  enabled : Bool
  level : Level
  /-- How many bytes of each body are copied at most. -/
  maxBodyBytes : Nat
  /-- Whether records are written with one entry a line. -/
  pretty : Bool
  /-- Unless empty, only requests that one of these matches are recorded. -/
  included : List PathFilter
  /-- Requests that one of these matches are not recorded. -/
  excluded : List PathFilter
  deriving DecidableEq, Repr

def RecordingSettings.standard : RecordingSettings :=
  { enabled := true, level := .basic, maxBodyBytes := 65536, pretty := false, included := [],
    excluded := [{ pathPattern := "/health", methods := [] }] }

/-- What is masked in a record. -/
structure MaskingSettings where
  enabled : Bool
  /-- What stands in the place of a masked value. -/
  maskValue : String
  /-- Header names whose values are masked. -/
  headers : List String
  /-- Query parameter names whose values are masked. -/
  parameters : List String
  /-- Paths of JSON body values that are masked. -/
  jsonBodyFields : List String
  deriving DecidableEq, Repr

def MaskingSettings.standard : MaskingSettings :=
  { enabled := true, maskValue := "****", headers := ["Authorization", "Cookie", "Set-Cookie"],
    parameters := ["access_token"], jsonBodyFields := ["$.password"] }

/-- **Settings** of traffic records. -/
structure Settings where
  recording : RecordingSettings
  masking : MaskingSettings
  deriving DecidableEq, Repr

def Settings.standard : Settings :=
  { recording := RecordingSettings.standard, masking := MaskingSettings.standard }

end Gatehouse.Traffic
