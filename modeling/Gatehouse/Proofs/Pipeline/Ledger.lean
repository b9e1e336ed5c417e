/-
Ledgers, and what a step can do to them.

Most of what a step does is of no concern to idempotent execution: breakers, diagnostics, metrics
and traffic records. The `Ledger` of a world is the rest, its store and its decisions (the history
without the comings and goings of permissions), and `Moves` lists, once and for all, what a step can
do to the ledger, to the claim of its visit and to the place of its visit. Every invariant of
idempotent execution is then a case analysis of `Moves`; none of them looks into a step again.
-/
import Gatehouse.Pipeline.Gates
import Gatehouse.Proofs.Idempotency.StoreLaws
import Gatehouse.Proofs.Traffic.Session

set_option autoImplicit false

namespace Gatehouse.Pipeline

open Gatehouse.Http Gatehouse.Idempotency Gatehouse.Routing Gatehouse.Traffic

/-! ## Ledgers -/

/-- Whether an event is about a permission that was given. -/
def Event.isPermission : Event → Bool
  | .granted _ _ => true
  | .settled _ _ _ => true
  | _ => false

/-- **Ledger:** the store and the decisions taken so far. -/
structure Ledger where
  store : Store
  decisions : List Event

namespace Ledger

def note (x : Ledger) (e : Event) : Ledger := { x with decisions := x.decisions ++ [e] }

def noteAll (x : Ledger) (events : List Event) : Ledger :=
  { x with decisions := x.decisions ++ events }

/-- A visit gives up the claim that it has. -/
def giveUp (x : Ledger) (visit : Nat) : Option String → Ledger
  | none => x
  | some key => { x with store := x.store.release key }.note (.unclaimed visit key)

/-- A visit takes a key and calls the handler. -/
def take (x : Ledger) (visit : Nat) (key : String) : Ledger :=
  ({ x with store := x.store.take key }.note (.claimed visit key)).note (.invoked visit)

/-- A visit stores the record of its execution. -/
def complete (x : Ledger) (visit : Nat) (record : Record) (now : Nat) : Ledger :=
  { x with store := x.store.complete record now }.note (.stored visit record)

def purge (x : Ledger) (now : Nat) : Ledger := { x with store := (x.store.purge now).2 }

end Ledger

namespace World

def ledger (w : World) : Ledger :=
  { store := w.store, decisions := w.history.filter fun e => !e.isPermission }

@[simp] theorem ledger_tell (w : World) (d : Diagnostic) : (w.tell d).ledger = w.ledger := rfl

@[simp] theorem ledger_count (w : World) (c : Counter) : (w.count c).ledger = w.ledger := rfl

@[simp] theorem ledger_emit (w : World) (e : Emission) : (w.emit e).ledger = w.ledger := rfl

@[simp] theorem ledger_breaker (w : World) (name : String) (now : Nat) (op : Breaker.Operation) :
    (w.breaker name now op).2.ledger = w.ledger := rfl

/-- An event that is about a permission is no decision. -/
theorem ledger_note_permission (w : World) {e : Event} (h : e.isPermission = true) :
    (w.note e).ledger = w.ledger := by
  simp [ledger, note, h]

theorem ledger_note (w : World) {e : Event} (h : e.isPermission = false) :
    (w.note e).ledger = w.ledger.note e := by
  simp [ledger, note, Ledger.note, h]

@[simp] theorem ledger_settle (w : World) (visit : Nat) (name : String) (failed : Bool)
    (elapsedMs now : Nat) : (w.settle visit name failed elapsedMs now).ledger = w.ledger := by
  unfold settle
  cases failed
  · exact ledger_note_permission _ rfl
  · exact ledger_note_permission _ rfl

@[simp] theorem ledger_handBack (w : World) (visit : Nat) (name : String) (now : Nat) :
    (w.handBack visit name now).ledger = w.ledger :=
  ledger_note_permission _ rfl

@[simp] theorem ledger_unclaim (w : World) (visit : Nat) (key : String) :
    (w.unclaim visit key).ledger = w.ledger.giveUp visit (some key) :=
  ledger_note _ rfl

@[simp] theorem ledger_storeRecord (w : World) (visit : Nat) (record : Record) (now : Nat) :
    (w.storeRecord visit record now).ledger = w.ledger.complete visit record now :=
  ledger_note _ rfl

end World

/-! ## Response bodies behind a passage -/

def bodyBytes (b : Body) : Bytes := b.pieces.flatMap Piece.bytes

/-- The response body of a passage as far as it has not been read, if there is a response. -/
def Passage.responseBody? : Passage → Option Body
  | .direct _ response => some response
  | .recorded x => x.response.map fun response => response.body.inner

/-- The handler's response is what its reader gets, recorded or not. -/
theorem Passage.responseBody?_respond (r : Recorder) (p : Passage) (response : Response) :
    (p.respond r response).responseBody? = some response.body := by
  cases p <;> rfl

/-- A poll of the response body behind a passage is a poll of that body. -/
theorem Passage.pollResponse_of_body {r : Recorder} {p : Passage} {body : Body}
    (h : p.responseBody? = some body) (now : Nat) :
    (p.pollResponse r now).1 = body.poll.1
      ∧ (p.pollResponse r now).2.2.responseBody? = some body.poll.2 := by
  cases p with
  | direct request response =>
    cases h
    exact ⟨rfl, rfl⟩
  | recorded x =>
    obtain ⟨response, hresponse, rfl⟩ := Option.map_eq_some_iff.1 h
    rw [pollResponse, RecordedExchange.pollResponse, hresponse]
    exact ⟨Tee.poll_result Body.source response.body,
      congrArg some (Tee.poll_inner Body.source response.body)⟩

/-! ## Moves of a visit -/

namespace Visit

/-- **A visit asks for a key:** its policy wants one, and its request has it. -/
def AsksFor (g : Guard) (v : Visit) (key : String) : Prop :=
  g.needsKey v.policy = true ∧ key? g v.request = .ok key

theorem AsksFor.unique {g : Guard} {v : Visit} {key other : String} (h : v.AsksFor g key)
    (hother : v.AsksFor g other) : key = other :=
  Except.ok.inj (h.2.symm.trans hother.2)

/-- A visit that has just come, and stands nowhere yet. -/
structure Fresh (v : Visit) : Prop where
  place : v.place = .gone
  claim : v.claim = none

/-- A visit that may claim a key now: it has just come with it, or it waits for it. -/
def Wants (g : Guard) (v : Visit) (key : String) : Prop :=
  (v.Fresh ∧ v.AsksFor g key) ∨ ∃ handle, v.place = .waiting key handle

/-- The place of a visit that is answered with a record. -/
def recordPlace (record : Record) : Place :=
  .answered record.status (Headers.ofList record.headers)
    (Passage.ofBody (Body.ofBytes record.body))

/-- **Moves:** what a step can do, at a time and with the response that the handler gives in
it, to a ledger and a visit. The last three arguments are the ledger, the claim and the place
after the step. -/
inductive Moves (g : Guard) (now : Nat) (given : Option Response) (x : Ledger) (v : Visit) :
    Ledger → Option String → Place → Prop where
  /-- Nothing happens. -/
  | stays : Moves g now given x v x v.claim v.place
  /-- Its breaker gives no permission. -/
  | denied (name : String) (status : Status) (headers : Headers) (passage : Passage)
      (hfresh : v.Fresh) :
    Moves g now given x v (x.note (.denied v.id name)) none (.answered status headers passage)
  /-- It needs a key and has none that can be used. -/
  | refused (status : Status) (headers : Headers) (passage : Passage) (hfresh : v.Fresh)
      (hnone : ∀ key, ¬v.AsksFor g key) :
    Moves g now given x v (x.note (.keyRefused v.id)) none (.answered status headers passage)
  /-- It needs no key. -/
  | passes (passage : Passage) (hfresh : v.Fresh) (hnone : ∀ key, ¬v.AsksFor g key) :
    Moves g now given x v (x.note (.invoked v.id)) none (.executing passage)
  /-- It claims a free key. -/
  | claims (key : String) (passage : Passage) (hwants : v.Wants g key)
      (hfree : x.store.Free key now) :
    Moves g now given x v (x.take v.id key) (some key) (.executing passage)
  /-- It finds a record. -/
  | replays (key : String) (record : Record) (storedAt : Nat) (hwants : v.Wants g key)
      (hslot : x.store.slot? key = some (.ready record storedAt))
      (hkept : x.store.expired now storedAt = false) :
    Moves g now given x v (x.note (.replayed v.id record false)) v.claim (recordPlace record)
  /-- It waits for somebody else's claim. -/
  | waits (key : String) (n : Nat) (hwants : v.Wants g key)
      (hslot : x.store.slot? key = some (.pending n)) :
    Moves g now given x v x v.claim (.waiting key ⟨n⟩)
  /-- It is told that its key is being executed. -/
  | rejected (key : String) (headers : Headers) (passage : Passage) (hwants : v.Wants g key) :
    Moves g now given x v (x.note (.rejected v.id key)) v.claim
      (.answered Status.conflict headers passage)
  /-- The claim that it waits for was completed. -/
  | replaysAwaited (key : String) (handle : InFlight) (record : Record)
      (hplace : v.place = .waiting key handle)
      (hended : x.store.ending? handle = some (.completed record)) :
    Moves g now given x v (x.note (.replayed v.id record true)) v.claim (recordPlace record)
  /-- Its handler reads the request. -/
  | reads (passage next : Passage) (hplace : v.place = .executing passage) :
    Moves g now given x v x v.claim (.executing next)
  /-- Its handler fails. -/
  | fails (passage : Passage) (error : String) (hplace : v.place = .executing passage) :
    Moves g now given x v ((x.note (.returned v.id (.error error))).giveUp v.id v.claim) none
      (.failed error)
  /-- Its handler answers, and the response is not to be stored. -/
  | answers (passage next : Passage) (response : Response) (hplace : v.place = .executing passage)
      (hclaim : v.claim = none) (hgiven : given = some response) :
    Moves g now given x v (x.note (.returned v.id (.ok (response.status, response.headers)))) none
      (.answered response.status response.headers next)
  /-- Its handler answers, and the response is to be stored. -/
  | captures (key : String) (passage next : Passage) (response : Response)
      (hplace : v.place = .executing passage) (hclaim : v.claim = some key)
      (hgiven : given = some response) (hbody : next.responseBody? = some response.body) :
    Moves g now given x v
      (x.note (.returned v.id (.ok (response.status, response.headers)))) (some key)
      (.storing key response.status response.headers next Reading.start)
  /-- A frame of the response is read. -/
  | absorbs (key : String) (status : Status) (headers : Headers) (passage next : Passage)
      (reading : Reading) (frame : Frame)
      (hplace : v.place = .storing key status headers passage reading)
      (hbody : ∀ body, passage.responseBody? = some body →
        ∃ rest, body.pieces = .frame frame :: rest
        ∧ next.responseBody? = some { body with pieces := rest }) :
    Moves g now given x v x v.claim
      (.storing key status headers next (reading.add (.frame frame)))
  /-- The response turns out to be unreadable. -/
  | captureFails (key : String) (status : Status) (headers : Headers) (passage : Passage)
      (reading : Reading) (answerHeaders : Headers) (answerPassage : Passage)
      (hplace : v.place = .storing key status headers passage reading) :
    Moves g now given x v (x.giveUp v.id v.claim) none
      (.answered Status.badGateway answerHeaders answerPassage)
  /-- The response has been read to its end. -/
  | stores (key : String) (status : Status) (headers : Headers) (passage : Passage)
      (reading : Reading) (hplace : v.place = .storing key status headers passage reading)
      (hbody : ∀ body, passage.responseBody? = some body → body.pieces = []) :
    Moves g now given x v
      (x.complete v.id (Record.ofResponse key { status, headers, body := reading.data }) now) none
      (recordPlace (Record.ofResponse key { status, headers, body := reading.data }))
  /-- Its client reads the response. -/
  | delivers (status : Status) (headers : Headers) (passage next : Passage)
      (hplace : v.place = .answered status headers passage) :
    Moves g now given x v x v.claim (.answered status headers next)
  /-- It is dropped. -/
  | leaves : Moves g now given x v (x.giveUp v.id v.claim) none .gone

/-- **A step moves a visit:** its request stays what it is, and the rest is one of the moves. -/
structure Moved (g : Guard) (now : Nat) (given : Option Response) (x : Ledger) (v : Visit)
    (after : Ledger) (u : Visit) : Prop where
  id : u.id = v.id
  request : u.request = v.request
  policy : u.policy = v.policy
  moves : Moves g now given x v after u.claim u.place

end Visit
end Gatehouse.Pipeline
