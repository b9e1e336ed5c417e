/-
What all requests share: the breakers, the store of executions, what has been
emitted, and the history.

The history lists what has happened, in order, with the number of the visit it happened to. It is
kept apart from the metrics: neither is computed from the other.
-/
import Gatehouse.Breaker.Registry
import Gatehouse.Idempotency.Store
import Gatehouse.Outputs

set_option autoImplicit false

namespace Gatehouse.Pipeline

open Gatehouse.Http Gatehouse.Breaker Gatehouse.Idempotency Gatehouse.Traffic

/-- How a permission is settled. -/
inductive Settlement where
  | success
  | failure
  /-- Handed back without an outcome. -/
  | release
  deriving DecidableEq, Repr

/-- The breaker operation of a settlement. -/
def Settlement.operation : Settlement → Operation
  | .success => .succeed
  | .failure => .fail
  | .release => .release

/-- **Event** of a run; every one names the visit it belongs to. -/
inductive Event where
  /-- A breaker gave no permission. -/
  | denied (visit : Nat) (breaker : String)
  /-- A breaker gave permission. -/
  | granted (visit : Nat) (breaker : String)
  | settled (visit : Nat) (breaker : String) (how : Settlement)
  /-- A key was claimed. -/
  | claimed (visit : Nat) (key : String)
  /-- A claim was given up. -/
  | unclaimed (visit : Nat) (key : String)
  /-- A record was stored. -/
  | stored (visit : Nat) (record : Record)
  /-- The handler was called. -/
  | invoked (visit : Nat)
  /-- The handler answered or failed. -/
  | returned (visit : Nat) (result : Except String (Status × Headers))
  /-- The idempotency gate refused the request for want of a usable key. -/
  | keyRefused (visit : Nat)
  /-- The idempotency gate refused the request because its key is being executed. -/
  | rejected (visit : Nat) (key : String)
  /-- A stored record was replayed; `waited` if the request had to wait for it. -/
  | replayed (visit : Nat) (record : Record) (waited : Bool)

structure World where
  registry : Registry
  store : Store
  outputs : Outputs
  history : List Event

namespace World

/-- The world before the first request. -/
def start (config : BreakerConfig) (ttlMs : Option Nat) : World :=
  { registry := Registry.ofConfig config, store := Store.ofTtl ttlMs, outputs := Outputs.empty,
    history := [] }

def note (w : World) (e : Event) : World := { w with history := w.history ++ [e] }

def tell (w : World) (d : Diagnostic) : World := { w with outputs := w.outputs.tell [d] }

def count (w : World) (c : Counter) : World := { w with outputs := w.outputs.count c }

/-- Takes in what a recorded exchange emits. -/
def emit (w : World) (e : Emission) : World := { w with outputs := w.outputs.emit e }

/-- An operation on a breaker. -/
def breaker (w : World) (name : String) (now : Nat) (op : Operation) : Bool × World :=
  let (granted, registry, events) := w.registry.perform name now op
  (granted, { w with registry, outputs := w.outputs.tell events })

/-! ## Permissions -/

/-- Settles a permission whose call has completed after some milliseconds. -/
def settle (w : World) (visit : Nat) (name : String) (failed : Bool)
    (elapsedMs now : Nat) : World :=
  let how := if failed then Settlement.failure else .success
  let (_, w) := w.breaker name now how.operation
  let w := if failed then w.tell (.failureRecorded name elapsedMs) else w
  ((w.count (.breakerCalls name failed)).count (.breakerDurations name)).note
    (.settled visit name how)

/-- Hands a permission back whose call was cancelled. -/
def handBack (w : World) (visit : Nat) (name : String) (now : Nat) : World :=
  let (_, w) := (w.tell (.permissionReleased name)).breaker name now .release
  w.note (.settled visit name .release)

/-! ## Claims -/

def unclaim (w : World) (visit : Nat) (key : String) : World :=
  let w := w.tell (.claimReleased key)
  { w with store := w.store.release key }.note (.unclaimed visit key)

def storeRecord (w : World) (visit : Nat) (record : Record) (now : Nat) : World :=
  let w := { w with store := w.store.complete record now }.tell
    (.responseStored record.key record.status)
  (w.count (.idempotencyEvents .executed)).note (.stored visit record)

/-! ## Looking at it -/

/-- What has been emitted since the last look. -/
def takeOutputs (w : World) : Outputs × World := (w.outputs, { w with outputs := Outputs.empty })

/-- How often the handler has been called. -/
def calls (w : World) : Nat :=
  (w.history.filter fun e => match e with
    | .invoked _ => true
    | _ => false).length

end World
end Gatehouse.Pipeline
