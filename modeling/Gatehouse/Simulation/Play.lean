/-
Playing scripts against the gates.

Time stands still while any task can move, the first of those that can moves first, and then
time goes on to the next moment that some task is waiting for. What the gates go through is a
run of `Pipeline.Gates`.
-/
import Gatehouse.Simulation.Task

set_option autoImplicit false

namespace Gatehouse.Simulation

open Gatehouse.Http Gatehouse.Pipeline

/-- **Play:** the gates, the tasks in front of them, and the time. -/
structure Play where
  gates : Gates
  tasks : List Task
  now : Nat

namespace Play

/-- Before the first task has begun. -/
def start (gates : Gates) (scripts : List Script) : Play :=
  { gates, tasks := scripts.map Task.ofScript, now := 0 }

/-- A move of the first task that can move. -/
def moveFirst (g : Guard) (f : Front) (s : Gates) (now : Nat) :
    List Task → Option (Gates × List Task)
  | [] => none
  | t :: rest =>
    match t.move g f s now with
    | some (s, t) => some (s, t :: rest)
    | none => (moveFirst g f s now rest).map fun (s, rest) => (s, t :: rest)

/-- The next moment that some task is waiting for. -/
def nextMoment (g : Guard) (f : Front) (p : Play) : Option Nat :=
  ((p.tasks.flatMap (Task.moments g f)).filter (p.now < ·)).min?

/-- **One step:** a move, or time goes on; nothing if all is over or for ever stuck. -/
def step (g : Guard) (f : Front) (p : Play) : Option Play :=
  match moveFirst g f p.gates p.now p.tasks with
  | some (gates, tasks) => some { p with gates, tasks }
  | none => (p.nextMoment g f).map fun now => { p with now }

def steps (g : Guard) (f : Front) : Nat → Play → Play
  | 0, p => p
  | n + 1, p =>
    match p.step g f with
    | none => p
    | some p => steps g f n p

/-- More steps than some scripts can take: apart from its bodies every task makes a few moves and
waits for a few moments, and whenever one ends, all others may have to be looked at again. -/
def bound (scripts : List Script) : Nat :=
  let moves := scripts.foldl (fun n s => n + s.length) 0
  (scripts.length + 16) * (moves + 16 * scripts.length + 16)

/-- **Plays scripts to their end.** -/
def run (g : Guard) (f : Front) (gates : Gates) (scripts : List Script) : Play :=
  (start gates scripts).steps g f (bound scripts)

/-- What became of every request, and when. -/
def outcomes (p : Play) : List (Option (Outcome × Nat)) := p.tasks.map Task.outcome?

end Play
end Gatehouse.Simulation
