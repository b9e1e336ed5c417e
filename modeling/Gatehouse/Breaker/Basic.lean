/-
A count-based circuit breaker.

While it is closed a breaker records the outcome of every call in a sliding window. When the window
holds enough outcomes and the failure rate reaches the threshold, the breaker opens and refuses
every call until its waiting time has passed; the next call that asks then finds it half-open.
Half-open, a limited number of trial calls is admitted: when all of them succeed the breaker closes
with an empty window, and one failure opens it again. A permission can also be handed back without
an outcome, which frees the trial it used.

All operations are functions of the breaker and the current time in milliseconds. An outcome carries
no note of the permission it belongs to.
-/
import Gatehouse.Breaker.Window
import Gatehouse.Number.Binary

set_option autoImplicit false

namespace Gatehouse.Breaker

open Gatehouse.Number

/-! ## Settings and state -/

structure Settings where
  /-- The failure rate in percent at which the breaker opens, in single precision. -/
  failureRateThreshold : Binary
  /-- How many outcomes the window holds. -/
  slidingWindowSize : Nat
  /-- How many outcomes are needed before the rate counts. -/
  minimumNumberOfCalls : Nat
  /-- How long the breaker stays open, in milliseconds. -/
  waitDurationMs : Nat
  /-- How many trial calls a half-open breaker admits. -/
  permittedCallsInHalfOpenState : Nat
  deriving DecidableEq, Repr

/-- The settings of a breaker that configuration does not mention. -/
def Settings.standard : Settings :=
  { failureRateThreshold := BinaryFormat.single.ofNat 50
    slidingWindowSize := 100
    minimumNumberOfCalls := 10
    waitDurationMs := 60000
    permittedCallsInHalfOpenState := 10 }

/-- What a breaker is doing. -/
inductive State where
  /-- Calls pass. -/
  | closed
  /-- Calls are refused. -/
  | opened
  /-- Trial calls pass. -/
  | halfOpen
  deriving DecidableEq, Repr

def State.label : State → String
  | .closed => "CLOSED"
  | .opened => "OPEN"
  | .halfOpen => "HALF_OPEN"

/-! ## The failure rate -/

/-- The failure rate in percent. The two counts, the product and the quotient are each rounded to
single precision. -/
def failureRate (failures calls : Nat) : Binary :=
  let f := BinaryFormat.single
  f.div (f.mul (f.ofNat failures) (f.ofNat 100)) (f.ofNat calls)

/-- How many outcomes are needed before the rate counts: no more than the window can hold. -/
def Settings.evaluatedFrom (s : Settings) : Nat := min s.minimumNumberOfCalls s.slidingWindowSize

/-- Whether a window asks for the breaker to open. -/
def Settings.trips (s : Settings) (w : Window) : Bool :=
  decide (s.evaluatedFrom ≤ w.size) && s.failureRateThreshold.le (failureRate w.failures w.size)

/-! ## The breaker -/

structure CircuitBreaker where
  settings : Settings
  state : State
  /-- Outcomes recorded while closed. -/
  window : Window
  /-- When it last opened. -/
  openedAt : Option Nat
  /-- Trial permissions granted in this half-open period and not handed back. -/
  trialsIssued : Nat
  /-- Trial calls of this half-open period that succeeded. -/
  trialSuccesses : Nat
  deriving Repr

namespace CircuitBreaker

/-- A new breaker: closed, nothing recorded. -/
def ofSettings (settings : Settings) : CircuitBreaker :=
  { settings, state := .closed, window := Window.empty, openedAt := none, trialsIssued := 0,
    trialSuccesses := 0 }

/-! ## Transitions -/

/-- Opens at a time. -/
def trip (b : CircuitBreaker) (now : Nat) : CircuitBreaker :=
  { b with state := .opened, openedAt := some now }

def halfOpen (b : CircuitBreaker) : CircuitBreaker :=
  { b with state := .halfOpen, trialsIssued := 0, trialSuccesses := 0 }

/-- Closes with an empty window. -/
def close (b : CircuitBreaker) : CircuitBreaker :=
  { b with state := .closed, window := Window.empty, openedAt := none }

/-! ## Operations -/

/-- Whether an open breaker has waited long enough. -/
def hasWaited (b : CircuitBreaker) (now : Nat) : Bool :=
  match b.openedAt with
  | none => true
  | some since => b.settings.waitDurationMs ≤ now - since

/-- The breaker that a caller finds: an open one whose waiting time is over is half-open. -/
def wake (b : CircuitBreaker) (now : Nat) : CircuitBreaker :=
  if b.state = .opened ∧ b.hasWaited now then b.halfOpen else b

/-- **Asks for permission.** Never waits: the answer is yes or no at once. -/
def acquire (b : CircuitBreaker) (now : Nat) : Bool × CircuitBreaker :=
  let b := b.wake now
  match b.state with
  | .closed => (true, b)
  | .opened => (false, b)
  | .halfOpen =>
    if b.trialsIssued < b.settings.permittedCallsInHalfOpenState then
      (true, { b with trialsIssued := b.trialsIssued + 1 })
    else (false, b)

/-- **Records the outcome** of a permitted call. An open breaker takes no notice. -/
def record (b : CircuitBreaker) (now : Nat) (failed : Bool) : CircuitBreaker :=
  match b.state with
  | .opened => b
  | .closed =>
    let b := { b with window := b.window.record b.settings.slidingWindowSize failed }
    if b.settings.trips b.window then b.trip now else b
  | .halfOpen =>
    if failed then b.trip now
    else
      let b := { b with trialSuccesses := b.trialSuccesses + 1 }
      if b.settings.permittedCallsInHalfOpenState ≤ b.trialSuccesses then b.close else b

def succeed (b : CircuitBreaker) (now : Nat) : CircuitBreaker := b.record now false

def fail (b : CircuitBreaker) (now : Nat) : CircuitBreaker := b.record now true

/-- **Hands a permission back** whose call never completed. -/
def release (b : CircuitBreaker) : CircuitBreaker :=
  if b.state = .halfOpen then { b with trialsIssued := b.trialsIssued - 1 } else b

end CircuitBreaker

/-! ## Operations as data -/

inductive Operation where
  | acquire
  | succeed
  | fail
  | release
  /-- Looks at the state and changes nothing. -/
  | inspect
  deriving DecidableEq, Repr

/-- The breaker after an operation, and whether it granted a permission. -/
def CircuitBreaker.perform (b : CircuitBreaker) (now : Nat) : Operation → Bool × CircuitBreaker
  | .acquire => b.acquire now
  | .succeed => (false, b.succeed now)
  | .fail => (false, b.fail now)
  | .release => (false, b.release)
  | .inspect => (false, b)

end Gatehouse.Breaker
