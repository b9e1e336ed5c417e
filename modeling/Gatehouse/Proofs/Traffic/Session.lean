/-
Runs of one recorded exchange.

A session is an exchange whose two bodies are read by whoever holds them: the request body at any
time, the response body from the response on until it is dropped, each one as far as its reader
likes. Beside the exchange it keeps every poll that a reader has seen and everything that has been
written. The bodies are of any kind.

The invariant is `Faithful`: what a tee has copied is what its polls delivered, up to its
limit, and its overflow flag is set exactly when they delivered more. The work is in
`copyOf_data` and `copyOf_truncated`, which say this for a list of polls; a step of a session
adds one poll to one of the two lists.
-/
import Gatehouse.Traffic.Recording
import Mathlib.Data.List.Induction

set_option autoImplicit false

namespace Gatehouse.Traffic

open Gatehouse.Http

/-! ## What a list of polls delivers -/

/-- The data bytes of a list of polls. -/
def readBytes (polls : List Poll) : Bytes := polls.flatMap Poll.bytes

/-- The copy that a tee makes of a list of polls. -/
def copyOf (limit : Nat) (polls : List Poll) : CaptureBuffer :=
  polls.foldl (fun copy p => copy.append p.bytes) (CaptureBuffer.ofLimit limit)

theorem copyOf_concat (limit : Nat) (polls : List Poll) (p : Poll) :
    copyOf limit (polls ++ [p]) = (copyOf limit polls).append p.bytes := by
  rw [copyOf, List.foldl_append]
  rfl

theorem copyOf_limit (limit : Nat) (polls : List Poll) : (copyOf limit polls).limit = limit := by
  induction polls using List.reverseRecOn with
  | nil => rfl
  | append_singleton polls p ih => rw [copyOf_concat]; exact ih

theorem readBytes_concat (polls : List Poll) (p : Poll) :
    readBytes (polls ++ [p]) = readBytes polls ++ p.bytes := by
  simp [readBytes]

/-- A copy holds the first bytes of what was read, as many as its limit allows. -/
theorem copyOf_data (limit : Nat) (polls : List Poll) :
    (copyOf limit polls).data = (readBytes polls).take limit := by
  induction polls using List.reverseRecOn with
  | nil => exact List.take_nil.symm
  | append_singleton polls p ih =>
    rw [copyOf_concat, readBytes_concat, List.take_append]
    rw [CaptureBuffer.append, copyOf_limit, ih, List.length_take]
    -- the room that is left is what the limit has over all that was read
    have hroom : limit - min limit (readBytes polls).length = limit - (readBytes polls).length := by
      omega
    rw [hroom]

/-- A copy has overflowed exactly when more was read than its limit allows. -/
theorem copyOf_truncated (limit : Nat) (polls : List Poll) :
    (copyOf limit polls).truncated = decide (limit < (readBytes polls).length) := by
  induction polls using List.reverseRecOn with
  | nil => exact (decide_eq_false (Nat.not_lt_zero limit)).symm
  | append_singleton polls p ih =>
    rw [copyOf_concat, readBytes_concat, List.length_append]
    rw [CaptureBuffer.append, copyOf_limit, copyOf_data, ih, List.length_take]
    -- either it had overflowed before, or the poll brought more than there was room for
    rw [← Bool.decide_or]
    exact decide_eq_decide.2 (by omega)

theorem CaptureBuffer.append_nil (b : CaptureBuffer) : b.append [] = b := by
  simp [CaptureBuffer.append]

/-- One poll of a tee copies the data of that poll. -/
theorem Tee.poll_capture {σ : Type} (src : Source σ) (t : Tee σ) :
    (t.poll src).2.2.capture = t.capture.append (src.poll t.inner).1.bytes := by
  unfold Tee.poll
  rcases src.poll t.inner with ⟨result, inner⟩
  -- only a data frame has bytes; every other poll appends nothing
  have hnothing := (CaptureBuffer.append_nil t.capture).symm
  dsimp only
  cases Tee.ending src result inner <;> rcases result with _ | (_ | _) | _ | _ <;>
    first | rfl | exact hnothing

theorem Tee.poll_result {σ : Type} (src : Source σ) (t : Tee σ) :
    (t.poll src).1 = (src.poll t.inner).1 := by
  unfold Tee.poll
  rcases src.poll t.inner with ⟨result, inner⟩
  dsimp only
  cases Tee.ending src result inner <;> rfl

/-- A tee leaves its body as the poll leaves it. -/
theorem Tee.poll_inner {σ : Type} (src : Source σ) (t : Tee σ) :
    (t.poll src).2.2.inner = (src.poll t.inner).2 := by
  unfold Tee.poll
  rcases src.poll t.inner with ⟨result, inner⟩
  dsimp only
  cases Tee.ending src result inner <;> rfl

/-! ## Sessions -/

/-- What can happen to an exchange. -/
inductive SessionAction (τ : Type) where
  | readRequest
  | respond (status : Status) (headers : Headers) (body : τ)
  | readResponse (now : Nat)
  | dropResponse (now : Nat)
  | fail (error : String)

/-- How far an exchange has come. -/
inductive SessionPhase where
  /-- There is no response yet. -/
  | waiting
  /-- There is a response, and its body can be read. -/
  | answered
  /-- The exchange has failed, or the response body is gone. -/
  | over
  deriving DecidableEq, Repr

/-- **Session:** an exchange, what its readers have seen, and what has been written. -/
structure Session (σ τ : Type) where
  exchange : RecordedExchange σ τ
  phase : SessionPhase
  requestPolls : List Poll
  responsePolls : List Poll
  records : List TrafficRecord
  diagnostics : List Diagnostic

namespace Session

variable {σ τ : Type}

def start (r : Recorder) (origin : Origin) (request : Request) (body : σ) (now : Nat) :
    Session σ τ :=
  { exchange := RecordedExchange.start r origin request body now, phase := .waiting,
    requestPolls := [], responsePolls := [], records := [], diagnostics := [] }

/-- What is emitted. An exchange can fail until there is a response. -/
def emission (r : Recorder) (responses : Source τ) (s : Session σ τ) : SessionAction τ → Emission
  | .readRequest => .none
  | .respond _ _ _ => .none
  | .readResponse now =>
    if s.phase = .answered then (s.exchange.pollResponse r responses now).2.1 else .none
  | .dropResponse now => if s.phase = .answered then s.exchange.dropResponse r now else .none
  | .fail error => if s.phase = .waiting then s.exchange.failed r error else .none

/-- What becomes of the exchange. -/
def advance (r : Recorder) (requests : Source σ) (responses : Source τ) (s : Session σ τ) :
    SessionAction τ → Session σ τ
  | .readRequest =>
    let (result, exchange) := s.exchange.pollRequest requests
    { s with exchange, requestPolls := s.requestPolls ++ [result] }
  | .respond status headers body =>
    if s.phase = .waiting then
      { s with exchange := s.exchange.respond r status headers body, phase := .answered }
    else s
  | .readResponse now =>
    if s.phase = .answered then
      let (result, _, exchange) := s.exchange.pollResponse r responses now
      { s with exchange, responsePolls := s.responsePolls ++ [result] }
    else s
  | .dropResponse _ => if s.phase = .answered then { s with phase := .over } else s
  | .fail _ => if s.phase = .waiting then { s with phase := .over } else s

/-- **One step of a session.** -/
def step (r : Recorder) (requests : Source σ) (responses : Source τ) (s : Session σ τ)
    (a : SessionAction τ) : Session σ τ :=
  let emitted := s.emission r responses a
  let next := s.advance r requests responses a
  { next with
    records := s.records ++ emitted.records
    diagnostics := s.diagnostics ++ emitted.diagnostics }

/-- **A run of a session.** -/
def run (r : Recorder) (requests : Source σ) (responses : Source τ) (s : Session σ τ)
    (actions : List (SessionAction τ)) : Session σ τ :=
  actions.foldl (step r requests responses) s

/-- What holds at the beginning and is kept by every step holds after every run. -/
theorem run_induction {r : Recorder} {requests : Source σ} {responses : Source τ}
    {motive : Session σ τ → Prop} {s : Session σ τ} (hstart : motive s)
    (hstep : ∀ s a, motive s → motive (s.step r requests responses a))
    (actions : List (SessionAction τ)) : motive (s.run r requests responses actions) := by
  induction actions generalizing s with
  | nil => exact hstart
  | cons a actions ih => exact ih (hstep s a hstart)

/-! ## Copies are faithful -/

/-- **Invariant:** each tee has copied what its polls delivered; without a response
nothing was polled. -/
structure Faithful (r : Recorder) (s : Session σ τ) : Prop where
  request : s.exchange.request.capture = copyOf r.requestLimit s.requestPolls
  response : ∀ response, s.exchange.response = some response →
    response.body.capture = copyOf (r.responseLimit response.status) s.responsePolls
  waiting : s.phase = .waiting → s.responsePolls = []
  answered : s.phase = .answered → ∃ response, s.exchange.response = some response

theorem faithful_start (r : Recorder) (origin : Origin) (request : Request) (body : σ) (now : Nat) :
    Faithful r (start r origin request body now : Session σ τ) where
  request := rfl
  response := nofun
  waiting := fun _ => rfl
  answered := nofun

theorem pollRequest_request (requests : Source σ) (x : RecordedExchange σ τ) :
    (x.pollRequest requests).2.request = (x.request.poll requests).2.2 := rfl

theorem pollRequest_result (requests : Source σ) (x : RecordedExchange σ τ) :
    (x.pollRequest requests).1 = (requests.poll x.request.inner).1 :=
  Tee.poll_result requests x.request

theorem Faithful.readRequest {r : Recorder} {s : Session σ τ} (h : Faithful r s)
    (requests : Source σ) (responses : Source τ) :
    Faithful r (s.advance r requests responses .readRequest) where
  request := by
    change (s.exchange.pollRequest requests).2.request.capture
      = copyOf r.requestLimit (s.requestPolls ++ [(s.exchange.pollRequest requests).1])
    rw [copyOf_concat, ← h.request, pollRequest_request, pollRequest_result, Tee.poll_capture]
  response := h.response
  waiting := h.waiting
  answered := h.answered

theorem Faithful.readResponse {r : Recorder} {s : Session σ τ} (h : Faithful r s)
    (requests : Source σ) (responses : Source τ) (now : Nat) :
    Faithful r (s.advance r requests responses (.readResponse now)) := by
  by_cases hphase : s.phase = .answered
  case neg =>
    rw [advance, if_neg hphase]
    exact h
  case pos =>
    obtain ⟨response, hresponse⟩ := h.answered hphase
    have hcapture := h.response response hresponse
    rw [advance, if_pos hphase, RecordedExchange.pollResponse, hresponse]
    -- the status stays, so the limit of the copy does too
    refine ⟨h.request, ?_, fun hwaiting => ?_, fun _ => ⟨_, rfl⟩⟩
    · intro next hnext
      rw [← Option.some.inj hnext]
      change (response.body.poll responses).2.2.capture = copyOf (r.responseLimit response.status) _
      rw [copyOf_concat, ← hcapture, Tee.poll_result, Tee.poll_capture]
    · exact absurd (hphase.symm.trans hwaiting) nofun

theorem Faithful.advance {r : Recorder} {s : Session σ τ} (h : Faithful r s) (requests : Source σ)
    (responses : Source τ) (a : SessionAction τ) :
    Faithful r (s.advance r requests responses a) := by
  cases a with
  | readRequest => exact h.readRequest requests responses
  | readResponse now => exact h.readResponse requests responses now
  | respond status headers body =>
    by_cases hphase : s.phase = .waiting
    case neg =>
      rw [Session.advance, if_neg hphase]
      exact h
    case pos =>
      rw [Session.advance, if_pos hphase]
      refine ⟨h.request, fun response hresponse => ?_, nofun, fun _ => ⟨_, rfl⟩⟩
      rw [← Option.some.inj hresponse]
      -- the new copy is empty, and so is the list of polls as long as there was no response
      rw [h.waiting hphase]
      rfl
  | dropResponse now =>
    by_cases hphase : s.phase = .answered
    case neg =>
      rw [Session.advance, if_neg hphase]
      exact h
    case pos =>
      rw [Session.advance, if_pos hphase]
      exact ⟨h.request, h.response, nofun, nofun⟩
  | fail error =>
    by_cases hphase : s.phase = .waiting
    case neg =>
      rw [Session.advance, if_neg hphase]
      exact h
    case pos =>
      rw [Session.advance, if_pos hphase]
      exact ⟨h.request, h.response, nofun, nofun⟩

/-- **On every run the copies are faithful.** -/
theorem faithful_run (r : Recorder) (requests : Source σ) (responses : Source τ) (origin : Origin)
    (request : Request) (body : σ) (now : Nat) (actions : List (SessionAction τ)) :
    Faithful r
      ((start r origin request body now : Session σ τ).run r requests responses actions) := by
  refine run_induction (faithful_start r origin request body now) (fun s a h => ?_) actions
  have hnext := h.advance requests responses a
  -- a step only adds what was written
  exact ⟨hnext.request, hnext.response, hnext.waiting, hnext.answered⟩

end Session
end Gatehouse.Traffic
