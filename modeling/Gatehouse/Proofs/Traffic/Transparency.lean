/-
Recording is transparent.

A call has two parties, the handler and the client, and a line between them: the two bodies as they
are, or the exchange that records them. The parties may do what they like, in any order, and what
they do may depend on all that they have seen, and on how far the call has come. So a party is a
function from the number of moves that have been made, and the observations, to the next move. The
number matters because not every move shows something: that the handler's side works at a body that
it has handed over, as it does with a body that passes pieces of the request on, is seen by nobody
until the client polls it, and the handler's side must know that it has been done. What a party is
shown is the head of the message, every poll of its body, and what the body announces then.

`seen_play` says that the parties see the same with recording and without it. A recorded line is
bare again once its exchange is forgotten (`Line.bare`), and the work is in seeing that every move
shows the same on both and commutes with forgetting; nothing is known of the bodies but what can
be asked of them. At the gates the line is a passage (`Line.passage`), for the bodies that
messages have there.
-/
import Gatehouse.Pipeline.Passage
import Gatehouse.Proofs.Traffic.Session

set_option autoImplicit false

namespace Gatehouse.Traffic

open Gatehouse.Http Gatehouse.Pipeline

/-! ## What the parties see -/

/-- What a body announces to its reader. -/
structure Announcement where
  isEnd : Bool
  size : SizeHint
  deriving DecidableEq, Repr

/-- What a body announces in a state. -/
def announcementOf {σ : Type} (src : Source σ) (body : σ) : Announcement :=
  { isEnd := src.isEnd body, size := src.sizeHint body }

/-- **Observation** of one of the parties. -/
inductive Observation where
  /-- The handler is called. -/
  | called (method : Method) (uri : Uri) (headers : Headers) (assignedId : Option Bytes)
      (announced : Announcement)
  /-- The handler has polled the request body. -/
  | requestRead (result : Poll) (announced : Announcement)
  /-- The client has a response. -/
  | answered (status : Status) (headers : Headers) (announced : Announcement)
  /-- The client has polled the response body. -/
  | responseRead (result : Poll) (announced : Announcement)
  /-- The client has the failure of the handler. -/
  | failed (error : String)
  deriving DecidableEq

/-- **Move** of one of the parties. -/
inductive Move (τ : Type) where
  /-- The handler polls the request body. -/
  | readRequest
  | answer (status : Status) (headers : Headers) (body : τ)
  | fail (error : String)
  /-- The handler's side works at the response body that it has handed over. -/
  | work (change : τ → τ)
  /-- The client polls the response body. -/
  | readResponse (now : Nat)
  /-- The client drops the response body. -/
  | dropResponse

/-! ## Lines -/

/-- A response as the handler gives it. -/
structure Answer (τ : Type) where
  status : Status
  headers : Headers
  body : τ

/-- **Line** between the parties, with bodies in states `σ` and `τ`. -/
inductive Line (σ τ : Type) where
  /-- The bodies themselves. -/
  | direct (request : σ) (response : Option (Answer τ))
  /-- The bodies behind tees. -/
  | recorded (exchange : RecordedExchange σ τ)

namespace Line

variable {σ τ : Type}

/-- **The line of a recorder:** requests that it selects are recorded. -/
def between (r : Recorder) (request : Request) (body : σ) (now : Nat) : Line σ τ :=
  if r.shouldRecord request.method request.uri.path then
    .recorded (RecordedExchange.start r .inbound request body now)
  else .direct body none

def requestAnnounces (requests : Source σ) : Line σ τ → Announcement
  | .direct request _ => announcementOf requests request
  | .recorded x => announcementOf (Tee.source requests) x.request

/-- The handler polls the request body, directly or through a tee. -/
def readRequest (requests : Source σ) : Line σ τ → Poll × Line σ τ
  | .direct request response =>
    ((requests.poll request).1, .direct (requests.poll request).2 response)
  | .recorded x => ((x.pollRequest requests).1, .recorded (x.pollRequest requests).2)

/-- A response goes on the line; on a recorded one its body is put behind a tee with a hook. -/
def answer (r : Recorder) (status : Status) (headers : Headers) (body : τ) : Line σ τ → Line σ τ
  | .direct request _ => .direct request (some { status, headers, body })
  | .recorded x => .recorded (x.respond r status headers body)

/-- What the client is shown of a response, without having polled its body. -/
def answerShown (responses : Source τ) : Line σ τ → Option Observation
  | .direct _ response =>
    response.map fun a => .answered a.status a.headers (announcementOf responses a.body)
  | .recorded x =>
    x.response.map fun a =>
      .answered a.status a.headers (announcementOf (Tee.source responses) a.body)

def responseAnnounces (responses : Source τ) : Line σ τ → Option Announcement
  | .direct _ response => response.map fun a => announcementOf responses a.body
  | .recorded x => x.response.map fun a => announcementOf (Tee.source responses) a.body

/-- The handler's side reaches the body of the response behind the tee. -/
def work (change : τ → τ) : Line σ τ → Line σ τ
  | .direct request response =>
    .direct request (response.map fun a => { a with body := change a.body })
  | .recorded x =>
    .recorded { x with
      response := x.response.map fun a =>
        { a with body := { a.body with inner := change a.body.inner } } }

/-- Without a response there is nothing to read. -/
def readResponse (r : Recorder) (responses : Source τ) (now : Nat) : Line σ τ → Poll × Line σ τ
  | .direct request none => (.ended, .direct request none)
  | .direct request (some a) =>
    ((responses.poll a.body).1, .direct request (some { a with body := (responses.poll a.body).2 }))
  | .recorded x =>
    ((x.pollResponse r responses now).1, .recorded (x.pollResponse r responses now).2.2)

/-- **A line without its exchange:** the bodies that are behind the tees. -/
def bare : Line σ τ → Line σ τ
  | .direct request response => .direct request response
  | .recorded x =>
    .direct x.request.inner
      (x.response.map fun a => { status := a.status, headers := a.headers, body := a.body.inner })

section

variable (r : Recorder) (requests : Source σ) (responses : Source τ) (l : Line σ τ)

/-- Whether a request is recorded or not, the body of it is on the line. -/
theorem bare_between (request : Request) (body : σ) (now : Nat) :
    (between r request body now : Line σ τ).bare = .direct body none := by
  unfold between
  split
  · rfl
  · rfl

theorem requestAnnounces_bare : l.bare.requestAnnounces requests = l.requestAnnounces requests := by
  cases l with
  | direct request response => rfl
  | recorded x => rfl

/-- A poll of the request finds the same without the exchange. -/
theorem readRequest_bare :
    l.bare.readRequest requests
      = ((l.readRequest requests).1, (l.readRequest requests).2.bare) := by
  cases l with
  | direct request response => rfl
  | recorded x =>
    -- a tee passes the poll on, and keeps the body that the poll leaves
    have hresult : (x.pollRequest requests).1 = (requests.poll x.request.inner).1 :=
      Tee.poll_result requests x.request
    have hinner : (x.pollRequest requests).2.request.inner = (requests.poll x.request.inner).2 :=
      Tee.poll_inner requests x.request
    have hresponse : (x.pollRequest requests).2.response = x.response := rfl
    simp only [bare, readRequest, hresult, hinner, hresponse]

theorem answer_bare (status : Status) (headers : Headers) (body : τ) :
    l.bare.answer r status headers body = (l.answer r status headers body).bare := by
  cases l with
  | direct request response => rfl
  | recorded x => rfl

theorem answerShown_bare : l.bare.answerShown responses = l.answerShown responses := by
  cases l with
  | direct request response => rfl
  | recorded x =>
    rw [bare, answerShown, answerShown, Option.map_map]
    rfl

theorem responseAnnounces_bare :
    l.bare.responseAnnounces responses = l.responseAnnounces responses := by
  cases l with
  | direct request response => rfl
  | recorded x =>
    rw [bare, responseAnnounces, responseAnnounces, Option.map_map]
    rfl

theorem work_bare (change : τ → τ) : l.bare.work change = (l.work change).bare := by
  cases l with
  | direct request response => rfl
  | recorded x =>
    rw [work, bare, bare, work, Option.map_map, Option.map_map]
    rfl

/-- So does a poll of the response. -/
theorem readResponse_bare (now : Nat) :
    l.bare.readResponse r responses now
      = ((l.readResponse r responses now).1, (l.readResponse r responses now).2.bare) := by
  cases l with
  | direct request response => cases response <;> rfl
  | recorded x =>
    rw [bare, readResponse, RecordedExchange.pollResponse]
    cases hresponse : x.response with
    | none => simp only [Option.map_none, readResponse, bare, hresponse]
    | some a =>
      -- here the poll goes through the tee of the response, which passes it on as well
      simp only [Option.map_some, readResponse, bare]
      rw [← Tee.poll_result responses a.body, ← Tee.poll_inner responses a.body]

end

end Line

/-! ## Calls -/

/-- **Call:** the line between the parties and what they have seen. -/
structure Call (σ τ : Type) where
  line : Line σ τ
  phase : SessionPhase
  seen : List Observation

namespace Call

variable {σ τ : Type}

/-- The handler is called with a request. -/
def start (requests : Source σ) (request : Request) (line : Line σ τ) : Call σ τ :=
  { line, phase := .waiting,
    seen := [.called request.method request.uri request.headers request.assignedId
      (line.requestAnnounces requests)] }

/-- **One move.** A move that does not fit the phase of the call changes nothing. -/
def move (r : Recorder) (requests : Source σ) (responses : Source τ) (c : Call σ τ) :
    Move τ → Call σ τ
  | .readRequest =>
    let (result, line) := c.line.readRequest requests
    { c with line, seen := c.seen ++ [.requestRead result (line.requestAnnounces requests)] }
  | .answer status headers body =>
    if c.phase = .waiting then
      let line := c.line.answer r status headers body
      { line, phase := .answered, seen := c.seen ++ (line.answerShown responses).toList }
    else c
  | .fail error =>
    if c.phase = .waiting then { c with phase := .over, seen := c.seen ++ [.failed error] } else c
  | .work change => { c with line := c.line.work change }
  | .readResponse now =>
    if c.phase = .answered then
      let (result, line) := c.line.readResponse r responses now
      { c with
        line
        seen := c.seen ++ ((line.responseAnnounces responses).map (.responseRead result)).toList }
    else c
  | .dropResponse => if c.phase = .answered then { c with phase := .over } else c

/-- **So many moves** of parties that go by the number of moves that have been made, and by what
they have seen. -/
def play (r : Recorder) (requests : Source σ) (responses : Source τ)
    (parties : Nat → List Observation → Move τ) : Nat → Call σ τ → Call σ τ
  | 0, c => c
  | n + 1, c =>
    let reached := play r requests responses parties n c
    reached.move r requests responses (parties n reached.seen)

/-- A call without its exchange. -/
def bare (c : Call σ τ) : Call σ τ := { c with line := c.line.bare }

variable (r : Recorder) (requests : Source σ) (responses : Source τ)

theorem bare_start (request : Request) (line : Line σ τ) :
    (start requests request line).bare = start requests request line.bare := by
  rw [start, start, line.requestAnnounces_bare requests]
  rfl

/-- **A move shows the same on a bare line,** and leaves it bare. -/
theorem move_bare (c : Call σ τ) (m : Move τ) :
    c.bare.move r requests responses m = (c.move r requests responses m).bare := by
  have hphase : c.bare.phase = c.phase := rfl
  have hseen : c.bare.seen = c.seen := rfl
  have hline : c.bare.line = c.line.bare := rfl
  cases m with
  | readRequest =>
    simp only [move, hline, hseen, c.line.readRequest_bare requests, Line.requestAnnounces_bare]
    rfl
  | answer status headers body =>
    simp only [move, hphase, hline, hseen, Line.answer_bare, Line.answerShown_bare]
    split <;> rfl
  | fail error =>
    simp only [move, hphase, hseen]
    split <;> rfl
  | work change =>
    simp only [move, hline, Line.work_bare]
    rfl
  | readResponse now =>
    simp only [move, hphase, hline, hseen, c.line.readResponse_bare r responses now,
      Line.responseAnnounces_bare]
    split <;> rfl
  | dropResponse =>
    simp only [move, hphase]
    split <;> rfl

theorem play_bare (parties : Nat → List Observation → Move τ) (n : Nat) (c : Call σ τ) :
    play r requests responses parties n c.bare = (play r requests responses parties n c).bare := by
  induction n with
  | zero => rfl
  | succ n ih =>
    rw [play, play, ih]
    exact move_bare r requests responses _ _

/-- **Recording is transparent.** Whatever the bodies are, whatever the recorder's settings select
and copy, and whatever the handler and the client do, one move after another, at every moment they
have seen the same as if there were no recorder: the same request, the same response or failure, and
of each body the same polls and the same announcements. -/
theorem seen_play (request : Request) (body : σ) (now : Nat)
    (parties : Nat → List Observation → Move τ) (n : Nat) :
    (play r requests responses parties n
      (start requests request (.between r request body now))).seen
      = (play r requests responses parties n
          (start requests request (.direct body none))).seen := by
  -- both calls have the same bare one at their start, and moves keep it so
  have hstart : start requests request (.direct body none)
      = (start requests request (.between r request body now) : Call σ τ).bare := by
    rw [bare_start, Line.bare_between]
  rw [hstart, play_bare]
  rfl

/-- Parties whose response passes the request on: the handler answers with a body that holds
nothing, polls the request, and puts what it has got into that body, which the client polls then. -/
def passingOn : Nat → List Observation → Move Body
  | 0, _ => .answer ⟨200⟩ Headers.empty (Body.stream [])
  | 1, _ => .readRequest
  | 2, seen => .work fun body =>
    match seen.getLast? with
    | some (.requestRead (.frame frame) _) => { body with pieces := body.pieces ++ [.frame frame] }
    | _ => body
  | _, _ => .readResponse 0

/-- **What is passed on arrives,** recorded or not. -/
theorem seen_passingOn (request : Request) (frame : Frame) (rest : List Piece) (announced : Bool)
    (now : Nat) :
    (play r Body.source Body.source passingOn 4
        (start Body.source request
          (.between r request { pieces := .frame frame :: rest, announced } now))).seen.getLast?
      = some (.responseRead (.frame frame) (announcementOf Body.source (Body.stream []))) := by
  have hbare := play_bare r Body.source Body.source passingOn 4
    (start Body.source request
      (.between r request { pieces := .frame frame :: rest, announced } now))
  rw [bare_start, Line.bare_between] at hbare
  exact congrArg (fun c => c.seen.getLast?) hbare.symm

end Call

/-! ## Lines at the gates -/

namespace Line

/-- **The passage of a line** between parties whose bodies are those of messages. The gates keep the
head of a response beside its passage, and until there is a response an unrecorded passage has an
empty body in its place. -/
def passage : Line Body Body → Passage
  | .direct request response => .direct request ((response.map Answer.body).getD Body.empty)
  | .recorded x => .recorded x

variable (r : Recorder) (l : Line Body Body)

/-- A line begins as the passage of its request does. -/
theorem passage_between (request : Request) (now : Nat) :
    (between r request request.body now).passage
      = Passage.start (if r.shouldRecord request.method request.uri.path then some r else none)
        request now := by
  unfold between
  split
  · rfl
  · rfl

theorem passage_readRequest :
    l.passage.pollRequest
      = ((l.readRequest Body.source).1, (l.readRequest Body.source).2.passage) := by
  cases l with
  | direct request response => rfl
  | recorded x => rfl

theorem passage_answer (response : Response) :
    l.passage.respond r response
      = (l.answer r response.status response.headers response.body).passage := by
  cases l with
  | direct request old => rfl
  | recorded x => rfl

/-- A poll through a passage is a poll on its line. -/
theorem passage_readResponse (now : Nat) :
    (l.passage.pollResponse r now).1 = (l.readResponse r Body.source now).1
      ∧ (l.passage.pollResponse r now).2.2 = (l.readResponse r Body.source now).2.passage := by
  cases l with
  | direct request response =>
    cases response with
    | none => exact ⟨rfl, rfl⟩
    | some a => exact ⟨rfl, rfl⟩
  | recorded x => exact ⟨rfl, rfl⟩

theorem passage_responseSize {announced : Announcement}
    (h : l.responseAnnounces Body.source = some announced) :
    l.passage.responseSize = announced.size := by
  cases l with
  | direct request response =>
    obtain ⟨a, rfl, rfl⟩ := Option.map_eq_some_iff.1 h
    rfl
  | recorded x =>
    obtain ⟨a, hresponse, rfl⟩ := Option.map_eq_some_iff.1 h
    rw [passage, Passage.responseSize, hresponse]
    rfl

end Line

end Gatehouse.Traffic
