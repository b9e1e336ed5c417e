/-
What lies between the gates and the handler: the two bodies of one call, recorded or not.
-/
import Gatehouse.Traffic.Recording

set_option autoImplicit false

namespace Gatehouse.Pipeline

open Gatehouse.Http Gatehouse.Traffic

/-- **Passage** of a request to the handler and of the response back. -/
inductive Passage where
  /-- The bodies themselves. -/
  | direct (request response : Body)
  /-- The bodies behind tees. -/
  | recorded (exchange : RecordedExchange Body Body)

namespace Passage

/-- A passage whose handler has already gone, with a response body. -/
def ofBody (body : Body) : Passage := .direct Body.empty body

def start (recorder : Option Recorder) (request : Request) (now : Nat) : Passage :=
  match recorder with
  | none => .direct request.body Body.empty
  | some r => .recorded (RecordedExchange.start r .inbound request request.body now)

def pollRequest : Passage → Poll × Passage
  | .direct request response =>
    let (result, request) := request.poll; (result, .direct request response)
  | .recorded x => let (result, x) := x.pollRequest Body.source; (result, .recorded x)

/-- The handler answers. -/
def respond (r : Recorder) (p : Passage) (response : Response) : Passage :=
  match p with
  | .direct request _ => .direct request response.body
  | .recorded x => .recorded (x.respond r response.status response.headers response.body)

/-- What is emitted when the handler fails instead. -/
def failed (r : Recorder) (p : Passage) (error : String) : Emission :=
  match p with
  | .direct _ _ => .none
  | .recorded x => x.failed r error

def pollResponse (r : Recorder) (p : Passage) (now : Nat) : Poll × Emission × Passage :=
  match p with
  | .direct request response =>
    let (result, response) := response.poll
    (result, .none, .direct request response)
  | .recorded x =>
    let (result, emission, x) := x.pollResponse r Body.source now
    (result, emission, .recorded x)

/-- What is known about the size of the response body. -/
def responseSize : Passage → SizeHint
  | .direct _ response => response.sizeHint
  | .recorded x =>
    match x.response with
    | none => { lower := 0, upper := some 0 }
    | some response => response.body.sizeHint Body.source

/-- What is emitted when the response body is dropped. -/
def dropResponse (r : Recorder) (p : Passage) (now : Nat) : Emission :=
  match p with
  | .direct _ _ => .none
  | .recorded x => x.dropResponse r now

end Passage
end Gatehouse.Pipeline
