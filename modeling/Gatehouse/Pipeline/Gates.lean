/-
Many requests at once.

The gates in action are a world and all visits so far, each with its number. An action is one atomic
step of one visit, the arrival of a new one, or one of the operations that are not tied to a visit.
Any sequence of actions is a run; which sequences really occur is for a scheduler to decide
(`Simulation`), and nothing that is stated about all runs depends on it.
-/
import Gatehouse.Pipeline.Visit

set_option autoImplicit false

namespace Gatehouse.Pipeline

open Gatehouse.Http Gatehouse.Routing

structure Gates where
  world : World
  /-- The visits, each at its number. -/
  visits : List Visit

/-- **Action** at a time, in milliseconds. -/
inductive Action where
  /-- A request arrives, perhaps with a policy given to it beforehand. -/
  | arrive (request : Request) (preset : Option RoutePolicy) (now : Nat)
  /-- A waiting visit is looked at again. -/
  | resume (visit : Nat) (timedOut : Bool) (now : Nat)
  /-- The handler polls the request body of a visit. -/
  | readRequest (visit : Nat)
  /-- The handler answers or fails. -/
  | reply (visit : Nat) (result : Except String Response) (now : Nat)
  /-- One poll of a response that is to be stored. -/
  | absorb (visit : Nat) (now : Nat)
  /-- The client polls the response body. -/
  | deliver (visit : Nat) (now : Nat)
  /-- The visit is dropped. -/
  | leave (visit : Nat) (now : Nat)
  /-- Records that are too old are taken out of the store. -/
  | purge (now : Nat)

namespace Gates

def start (w : World) : Gates := { world := w, visits := [] }

/-- A step of the visit with a number; nothing if there is no such visit. -/
def onVisit (s : Gates) (id : Nat) (step : World → Visit → World × Visit) : Gates :=
  match s.visits[id]? with
  | none => s
  | some v =>
    let (world, v) := step s.world v
    { world, visits := s.visits.set id v }

/-- **One action.** -/
def step (g : Guard) (s : Gates) : Action → Gates
  | .arrive request preset now =>
    let (world, v) := Visit.arrive g s.world s.visits.length request preset now
    { world, visits := s.visits ++ [v] }
  | .resume id timedOut now => s.onVisit id fun w v => v.resume g w timedOut now
  | .readRequest id => s.onVisit id fun w v => (w, v.readRequest.2)
  | .reply id result now => s.onVisit id fun w v => v.reply g w result now
  | .absorb id now => s.onVisit id fun w v => v.absorb g w now
  | .deliver id now => s.onVisit id fun w v => (v.deliver g w now).2
  | .leave id now => s.onVisit id fun w v => v.leave g w now
  | .purge now => { s with world := { s.world with store := (s.world.store.purge now).2 } }

/-- **A run:** actions in order. -/
def run (g : Guard) (s : Gates) (actions : List Action) : Gates := actions.foldl (step g) s

end Gates
end Gatehouse.Pipeline
