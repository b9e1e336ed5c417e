/-
Settings of idempotent execution.
-/

set_option autoImplicit false

namespace Gatehouse.Idempotency

/-- What becomes of a request whose key is being executed by another one. -/
inductive InFlightPolicy where
  /-- It waits for the other one's record. -/
  | wait
  /-- It is refused at once. -/
  | reject
  deriving DecidableEq, Repr

def InFlightPolicy.label : InFlightPolicy → String
  | .wait => "wait"
  | .reject => "reject"

def InFlightPolicy.all : List InFlightPolicy := [.wait, .reject]

/-- **Settings** of the idempotency gate. -/
structure Settings where
  headerName : String
  /-- What becomes of concurrent requests with one key. -/
  inFlight : InFlightPolicy
  /-- How long a request waits for another one's record, in milliseconds. -/
  waitTimeoutMs : Nat
  /-- After how many seconds a refused client is told to come back. -/
  retryAfterSecs : Nat
  /-- How long a record counts, in seconds; `none` for ever. -/
  ttlSecs : Option Nat
  deriving DecidableEq, Repr

def Settings.standard : Settings :=
  { headerName := "X-Idempotency-Key", inFlight := .wait, waitTimeoutMs := 10000,
    retryAfterSecs := 1, ttlSecs := none }

end Gatehouse.Idempotency
