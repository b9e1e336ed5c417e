/-
A breaker together with the calls that it admitted.

An outcome carries no note of the permission it belongs to, so nothing in the breaker says which
call a success or a failure comes from. Here the calls are kept beside the breaker: when each of
them was admitted, and when and how it was settled. "When" is told by half-open periods, which are
numbered as they begin; at any other time there is no period.

The rules for callers are built in. Only a call that was granted permission can be settled, at any
later time and in any order, and at most once.
-/
import Mathlib.Data.List.Induction
import Gatehouse.Pipeline.World
import Gatehouse.Proofs.Breaker.Transitions

set_option autoImplicit false

namespace Gatehouse.Breaker

open Gatehouse.Pipeline (Settlement)

/-- How a call was settled, and in which half-open period, if it was in one. -/
structure Outcome where
  how : Settlement
  period : Option Nat
  deriving DecidableEq, Repr

/-- **An admitted call.** -/
structure Call where
  /-- The half-open period in which it was admitted, if it was in one. -/
  admittedIn : Option Nat
  outcome : Option Outcome
  deriving DecidableEq, Repr

/-- **A breaker and the calls it has admitted,** in the order of their admission. -/
structure Callers where
  breaker : CircuitBreaker
  /-- How many half-open periods have begun. -/
  periods : Nat
  calls : List Call

/-- What a caller does, at a time in milliseconds. -/
inductive CallerAction where
  | ask (now : Nat)
  | settle (call : Nat) (how : Settlement) (now : Nat)
  deriving DecidableEq, Repr

namespace Callers

def start (settings : Settings) : Callers :=
  { breaker := CircuitBreaker.ofSettings settings, periods := 0, calls := [] }

/-- The half-open period that the breaker is in, if it is in one. -/
def period (s : Callers) : Option Nat :=
  if s.breaker.state = .halfOpen then some s.periods else none

/-- The breaker does something, which may begin a half-open period. -/
def advance (s : Callers) (after : CircuitBreaker) : Callers :=
  { s with
    breaker := after
    periods := if s.breaker.state ≠ .halfOpen ∧ after.state = .halfOpen then s.periods + 1
      else s.periods }

/-- A caller asks; a call that is admitted gets the next number. -/
def ask (s : Callers) (now : Nat) : Callers :=
  let after := s.advance (s.breaker.acquire now).2
  if (s.breaker.acquire now).1 then
    { after with calls := after.calls ++ [{ admittedIn := after.period, outcome := none }] }
  else after

/-- A call is settled, unless it was before. -/
def settle (s : Callers) (call : Nat) (how : Settlement) (now : Nat) : Callers :=
  match s.calls[call]? with
  | some { admittedIn, outcome := none } =>
    { s.advance (s.breaker.perform now how.operation).2 with
      calls := s.calls.set call { admittedIn, outcome := some { how, period := s.period } } }
  | _ => s

/-- **One action.** -/
def step (s : Callers) : CallerAction → Callers
  | .ask now => s.ask now
  | .settle call how now => s.settle call how now

/-- **A run:** actions in order, on a new breaker. -/
def run (settings : Settings) (actions : List CallerAction) : Callers :=
  actions.foldl step (start settings)

theorem run_append (settings : Settings) (actions : List CallerAction) (a : CallerAction) :
    run settings (actions ++ [a]) = (run settings actions).step a := by
  rw [run, List.foldl_append]
  rfl

/-- What holds at the start and is kept by every action holds after every run. -/
theorem run_induction {settings : Settings} {P : Callers → Prop} (hstart : P (start settings))
    (hstep : ∀ s a, P s → P (s.step a)) (actions : List CallerAction) :
    P (run settings actions) := by
  induction actions using List.reverseRecOn with
  | nil => exact hstart
  | append_singleton actions a ih =>
    rw [run_append]
    exact hstep _ a ih

/-! ## Counting -/

/-- How many calls have succeeded in a period, whenever they were admitted. -/
def successesIn (s : Callers) (p : Nat) : Nat :=
  s.calls.countP fun call => call.outcome = some { how := .success, period := some p }

/-- How many calls that were admitted in a period have succeeded. -/
def trialsSucceeded (s : Callers) (p : Nat) : Nat :=
  s.calls.countP fun call =>
    call.admittedIn = some p ∧ call.outcome.map (·.how) = some .success

end Callers
end Gatehouse.Breaker
