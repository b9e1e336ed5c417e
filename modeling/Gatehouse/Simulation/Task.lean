/-
One scripted request in progress.

A task moves at a moment of simulated time as far as it can; it stands still while it waits for a
moment to come or for another task. The clock of the gates is not simulated: the age of records and
of open breakers is measured by real time, which does not pass during a simulation.
-/
import Gatehouse.Pipeline.Gates
import Gatehouse.Simulation.Script

set_option autoImplicit false

namespace Gatehouse.Simulation

open Gatehouse.Http Gatehouse.Pipeline

/-- The time of the gates. -/
def gateTime : Nat := 0

/-- What the handler has done with the call so far. -/
inductive Handling where
  /-- Nothing yet. -/
  | untouched
  /-- It has read this much of the request body and answers at a time, if at all. -/
  | working (due : Option Nat) (read : Bytes) (call : Nat)
  deriving DecidableEq, Repr

/-- Where the client reads a response body from. -/
inductive ResponseSource where
  /-- From the visit with a number. -/
  | visit (id : Nat)
  /-- From a body at hand. -/
  | body (body : Body)
  deriving DecidableEq, Repr

/-- How far a request has come. -/
inductive Stage where
  /-- It has not been made yet. -/
  | coming
  /-- It is on its way, as the visit with a number. -/
  | inside (visit : Nat) (handling : Handling)
  /-- The client reads the response. -/
  | reading (source : ResponseSource) (status : Status) (headers : Headers) (body : Reading)
      (polls : Nat)
  /-- It is over since a time. -/
  | finished (outcome : Outcome) (time : Nat)

structure Task where
  script : Script
  stage : Stage

namespace Task

/-- A script that has not begun. -/
def ofScript (script : Script) : Task := { script, stage := .coming }

/-- What became of the request and when, if it is over. -/
def outcome? (t : Task) : Option (Outcome × Nat) :=
  match t.stage with
  | .finished outcome time => some (outcome, time)
  | _ => none

/-- The client begins to read a response at hand. -/
def receive (t : Task) (f : Front) (request : Request) (response : Response) : Task :=
  let headers := f.headers request response.headers
  let body :=
    if f.withoutBody request.method response.status headers response.body.sizeHint then Body.empty
    else response.body
  { t with stage := .reading (.body body) response.status headers Reading.start 0 }

/-- The request is made. -/
def begin (g : Guard) (f : Front) (s : Gates) (t : Task) : Gates × Task :=
  let request := f.identified t.script.request
  if f.deadline? t.script.start = some t.script.start then (s, t.receive f request Service.timedOut)
  else if f.isForHealth request then
    (s, t.receive f request (Service.health s.world.registry.states request))
  else
    (s.step g (.arrive request t.script.preset gateTime),
      { t with stage := .inside s.visits.length .untouched })

/-- The handler reads the whole request body: what it has got, and the gates afterwards. A failure
counts as an empty body. -/
def readRequest (g : Guard) (id : Nat) : Nat → Reading → Gates → Bytes × Gates
  | 0, r, s => (r.data, s)
  | n + 1, r, s =>
    if r.finished then (if r.error.isSome then [] else r.data, s)
    else
      let result := match s.visits[id]? with
        | none => Poll.ended
        | some v => v.readRequest.1
      readRequest g id n (r.add result) (s.step g (.readRequest id))

/-- The handler is called: it takes the number of the call and reads the request body
if it wants to. -/
def call (g : Guard) (s : Gates) (t : Task) (id now : Nat) : Gates × Task :=
  let reply := t.script.reply
  let number := s.world.calls
  let (read, s) :=
    if reply.reads then
      readRequest g id (t.script.request.body.pieces.length + 2) Reading.start s
    else ([], s)
  (s, { t with stage := .inside id (.working (reply.delay.map (now + ·)) read number) })

/-- The result of the handler's call. -/
def result (f : Front) (t : Task) (read : Bytes) (call : Nat) : Except String Response :=
  f.handled t.script.request.method
    (t.script.reply.result.map fun answer => answer.toResponse read call)

/-- The response of a visit is there. -/
def receiveVisit (g : Guard) (f : Front) (s : Gates) (t : Task) (v : Visit) (status : Status)
    (headers : Headers) (passage : Passage) : Gates × Task :=
  let headers := f.headers v.request headers
  if f.withoutBody v.request.method status headers passage.responseSize then
    (s.step g (.leave v.id gateTime),
      { t with stage := .reading (.body Body.empty) status headers Reading.start 0 })
  else (s, { t with stage := .reading (.visit v.id) status headers Reading.start 0 })

/-- One move of a request on its way, if it can move. -/
def proceed (g : Guard) (f : Front) (s : Gates) (t : Task) (id : Nat) (handling : Handling)
    (now : Nat) : Option (Gates × Task) :=
  match s.visits[id]? with
  | none => none
  | some v =>
    match v.place with
    | .waiting _ handle =>
      let timedOut := decide (t.script.start + g.waitTimeoutMs ≤ now)
      if timedOut || (s.world.store.ending? handle).isSome then
        some (s.step g (.resume id timedOut gateTime), t)
      else none
    | .executing _ =>
      match handling with
      | .untouched => some (t.call g s id now)
      | .working (some due) read call =>
        if due ≤ now then some (s.step g (.reply id (t.result f read call) gateTime), t) else none
      | .working none _ _ => none
    | .storing .. => some (s.step g (.absorb id gateTime), t)
    | .answered status headers passage => some (t.receiveVisit g f s v status headers passage)
    | .failed error =>
      some (s.step g (.leave id gateTime), { t with stage := .finished (.failed error) now })
    | .gone => none

/-- One poll of the response body by the client. -/
def readOn (g : Guard) (s : Gates) (t : Task) (source : ResponseSource) (status : Status)
    (headers : Headers) (body : Reading) (polls now : Nat) : Gates × Task :=
  if body.finished || t.script.reads == some polls then
    let s := match source with
      | .visit id => s.step g (.leave id gateTime)
      | .body _ => s
    (s, { t with stage := .finished (.response status headers body) now })
  else
    match source with
    | .visit id =>
      let result := match s.visits[id]? with
        | none => Poll.ended
        | some v => (v.deliver g s.world gateTime).1
      (s.step g (.deliver id gateTime),
        { t with stage := .reading source status headers (body.add result) (polls + 1) })
    | .body b =>
      let (result, b) := b.poll
      (s, { t with stage := .reading (.body b) status headers (body.add result) (polls + 1) })

/-- The visit that the task holds, if any, is dropped. -/
def abandon (g : Guard) (s : Gates) (t : Task) : Gates :=
  match t.stage with
  | .inside id _ => s.step g (.leave id gateTime)
  | .reading (.visit id) .. => s.step g (.leave id gateTime)
  | _ => s

/-- One move towards the end of the request, if there is one to make. -/
def advance (g : Guard) (f : Front) (s : Gates) (t : Task) (now : Nat) : Option (Gates × Task) :=
  match t.stage with
  | .coming => if t.script.start ≤ now then some (t.begin g f s) else none
  | .inside id handling =>
    if (f.deadline? t.script.start).any (· ≤ now) then
      some (t.abandon g s, t.receive f (f.identified t.script.request) Service.timedOut)
    else t.proceed g f s id handling now
  | .reading source status headers body polls =>
    some (t.readOn g s source status headers body polls now)
  | .finished .. => none

/-- The client gives up, if its patience is at an end. -/
def giveUp (g : Guard) (s : Gates) (t : Task) (now : Nat) : Option (Gates × Task) :=
  match t.stage, t.script.patience with
  | .coming, _ => none
  | .finished .., _ => none
  | _, none => none
  | _, some patience =>
    if t.script.start + patience ≤ now then
      some (t.abandon g s, { t with stage := .finished .cancelled now })
    else none

/-- **One move of a task,** if it can move. A client gives up only when there is no other move. -/
def move (g : Guard) (f : Front) (s : Gates) (t : Task) (now : Nat) : Option (Gates × Task) :=
  (t.advance g f s now).or (t.giveUp g s now)

/-- The moments that the task may be waiting for. -/
def moments (g : Guard) (f : Front) (t : Task) : List Nat :=
  let start := t.script.start
  match t.stage with
  | .coming => [start]
  | .inside _ handling =>
    [start + g.waitTimeoutMs] ++ (f.deadline? start).toList
    ++ (t.script.patience.map (start + ·)).toList
    ++ (match handling with
      | .working (some due) _ _ => [due]
      | _ => [])
  | _ => []

end Task
end Gatehouse.Simulation
