/-
The store of idempotent executions.

For every key the store has nothing, a claim, or the record of a finished execution. A claim belongs
to whoever acquired it, and ends when the key is completed with a record or released without one.
Others who ask for a claimed key get a handle bound to that very claim: what becomes of the claim
can be read off the handle, whatever happens to the key later. A record older than the time to live
counts as absent: the next claim of its key takes it over.

The time, in milliseconds, is an argument of the operations that look at it.
-/
import Gatehouse.Http.Body
import Gatehouse.Http.Status
import Gatehouse.Table

set_option autoImplicit false

namespace Gatehouse.Idempotency

open Gatehouse.Http

/-! ## Records -/

/-- **Record** of a finished execution. -/
structure Record where
  key : String
  status : Status
  /-- The headers of the response, in its order, repeats kept. -/
  headers : List (HeaderName × Bytes)
  body : Bytes
  deriving DecidableEq, Repr

/-- A response whose body has been read. -/
structure BufferedResponse where
  status : Status
  headers : Headers
  body : Bytes
  deriving DecidableEq, Repr

def Record.ofResponse (key : String) (response : BufferedResponse) : Record :=
  { key, status := response.status, headers := response.headers.toList, body := response.body }

/-- **Replays** a record. -/
def Record.toResponse (r : Record) : BufferedResponse :=
  { status := r.status, headers := Headers.ofList r.headers, body := r.body }

/-! ## Slots -/

/-- What the store has for a key. -/
inductive Slot where
  /-- The key is claimed; claims are numbered. -/
  | pending (claim : Nat)
  /-- The key was completed at a time. -/
  | ready (record : Record) (storedAt : Nat)
  deriving DecidableEq, Repr

/-- How a claim ended. -/
inductive Ending where
  | completed (record : Record)
  | released
  deriving DecidableEq, Repr

/-- **Handle on a claim** of somebody else. -/
structure InFlight where
  claim : Nat
  deriving DecidableEq, Repr

structure Store where
  /-- How long a record counts, in milliseconds; `none` for ever. -/
  ttl : Option Nat
  slots : Table Slot
  /-- How many claims there have been. -/
  claims : Nat
  /-- How the claims that have ended did so. -/
  endings : List (Nat × Ending)
  deriving Repr

/-- What a claim attempt finds. -/
inductive Claim where
  /-- The caller owns the key and has to complete or release it. -/
  | acquired
  | replay (record : Record)
  /-- Somebody else owns the key. -/
  | pending (handle : InFlight)
  deriving DecidableEq, Repr

namespace Store

def ofTtl (ttl : Option Nat) : Store := { ttl, slots := [], claims := 0, endings := [] }

/-- Whether a record stored at a time is too old. -/
def expired (s : Store) (now storedAt : Nat) : Bool :=
  match s.ttl with
  | none => false
  | some ttl => ttl ≤ now - storedAt

def slot? (s : Store) (key : String) : Option Slot := List.lookup key s.slots

/-- Puts a new claim on a key. -/
def take (s : Store) (key : String) : Store :=
  { s with slots := Table.put key (.pending s.claims) s.slots, claims := s.claims + 1 }

/-- **Claims a key,** in one step, or tells what holds it. -/
def claim (s : Store) (key : String) (now : Nat) : Claim × Store :=
  match s.slot? key with
  | none => (.acquired, s.take key)
  | some (.pending n) => (.pending ⟨n⟩, s)
  | some (.ready record storedAt) =>
    if s.expired now storedAt then (.acquired, s.take key) else (.replay record, s)

/-- Notes how the claim on a key ends, if there is one. -/
def endClaim (s : Store) (key : String) (ending : Ending) : Store :=
  match s.slot? key with
  | some (.pending n) => { s with endings := (n, ending) :: s.endings }
  | _ => s

/-- **Stores the record** of its key and ends the claim on it. -/
def complete (s : Store) (record : Record) (now : Nat) : Store :=
  let s := s.endClaim record.key (.completed record)
  { s with slots := Table.put record.key (.ready record now) s.slots }

/-- **Gives up the claim** on a key without a record. A stored record stays. -/
def release (s : Store) (key : String) : Store :=
  match s.slot? key with
  | some (.pending _) =>
    let s := s.endClaim key .released
    { s with slots := Table.erase key s.slots }
  | _ => s

/-- The record of a key, if it is not too old. -/
def get? (s : Store) (key : String) (now : Nat) : Option Record :=
  match s.slot? key with
  | some (.ready record storedAt) => if s.expired now storedAt then none else some record
  | _ => none

/-- Whether a slot holds a record that is too old. -/
def stale (s : Store) (now : Nat) : Slot → Bool
  | .pending _ => false
  | .ready _ storedAt => s.expired now storedAt

/-- Takes out the records that are too old: how many there were. -/
def purge (s : Store) (now : Nat) : Nat × Store :=
  let kept := s.slots.filter fun entry => !s.stale now entry.2
  (s.slots.length - kept.length, { s with slots := kept })

def size (s : Store) : Nat := s.slots.length

/-- How the claim behind a handle ended, once it has. -/
def ending? (s : Store) (handle : InFlight) : Option Ending := s.endings.lookup handle.claim

end Store
end Gatehouse.Idempotency
