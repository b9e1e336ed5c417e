/-
What a level hides.

How much of an exchange is recorded is decided in several places: the limits of the copies, the
choice of fields, and the statuses whose bodies are withheld. Here they are seen to agree. A record
depends on what its level shows of an exchange and on nothing else (`Recorder.write_shown`). A host
is shown at every level, so the first `host` header is part of that even where headers are hidden.

When an exchange concludes with a response, its records are determined by its request, by the head
of the response, and by what had been read of the two bodies by then
(`records_run_of_concludedBy`). From the two together, exchanges that differ only where a level
does not look cannot be told apart by their records.
-/
import Gatehouse.Proofs.Traffic.WrittenRecords

set_option autoImplicit false

namespace Gatehouse

open Gatehouse.Http

/-! ## Hosts -/

/-- The host that the headers name: the first value of the header, however its name is written. -/
def Http.Headers.host? (h : Headers) : Option Bytes :=
  (h.toList.find? fun p => asciiLowercase p.1.text = "host").map (·.2)

namespace Traffic

/-- The first `host` header of a side. -/
def hostValue? (headers : List (String × String)) : Option String :=
  (headers.find? fun h => asciiLowercase h.1 = "host").map (·.2)

theorem hostValue?_cons_of_host {name : String} (h : asciiLowercase name = "host") (value : String)
    (rest : List (String × String)) : hostValue? ((name, value) :: rest) = some value := by
  simp [hostValue?, h]

theorem hostValue?_cons_of_ne {name : String} (h : asciiLowercase name ≠ "host") (value : String)
    (rest : List (String × String)) : hostValue? ((name, value) :: rest) = hostValue? rest := by
  simp [hostValue?, h]

theorem hostValue?_toPairs (h : Headers) : hostValue? h.toPairs = h.host?.map Bytes.lossy := by
  rw [hostValue?, Headers.toPairs, List.find?_map, Headers.host?, Option.map_map, Option.map_map]
  rfl

theorem hostHeader?_eq (e : Exchange) : e.hostHeader? = hostValue? e.headers := rfl

/-- Masking leaves the first `host` header at its place, with its value or the mask. -/
theorem Masker.hostValue?_maskHeadersFrom (m : Masker) {seen : List String} (hseen : "host" ∉ seen)
    (headers : List (String × String)) :
    hostValue? (m.maskHeadersFrom seen headers)
      = (hostValue? headers).map fun value =>
        if m.headers.contains "host" then m.mask else value := by
  induction headers generalizing seen with
  | nil => rfl
  | cons header rest ih =>
    obtain ⟨name, value⟩ := header
    rw [maskHeadersFrom]
    by_cases hhost : asciiLowercase name = "host"
    · have hnew : seen.contains "host" = false :=
        Bool.eq_false_iff.2 fun h => hseen (List.contains_iff_mem.1 h)
      simp only [hhost, hnew, Bool.false_eq_true, if_false]
      rw [hostValue?_cons_of_host hhost, Option.map_some]
      split <;> exact hostValue?_cons_of_host hhost _ _
    · rw [hostValue?_cons_of_ne hhost]
      -- another name is kept, masked or left out, and the host is still to come
      split
      · split
        · exact ih hseen
        · rw [hostValue?_cons_of_ne hhost]
          refine ih fun hmem => ?_
          rcases List.mem_cons.1 hmem with heq | hold
          · exact hhost heq.symm
          · exact hseen hold
      · rw [hostValue?_cons_of_ne hhost, ih hseen]

/-- The host of a masked side depends on its target and on its first `host` header. -/
theorem host?_maskExchange (m : Masker) (e : Exchange) :
    (m.maskExchange e).host?
      = ((Uri.ofString? (m.maskUri e.uri)).bind Uri.host?).or
          (e.hostHeader?.map fun value => if m.headers.contains "host" then m.mask else value) := by
  rw [Exchange.host?, hostHeader?_eq, hostHeader?_eq]
  exact congrArg _ (m.hostValue?_maskHeadersFrom List.not_mem_nil e.headers)

/-! ## What a record depends on -/

/-- **What is shown of a side:** without headers its host, without a body none and no word about
it. -/
def Exchange.shown (e : Exchange) (includeHeaders includeBody : Bool) : Exchange :=
  { e with
    headers := if includeHeaders then e.headers
      else (e.hostHeader?.map fun value => ("host", value)).toList
    body := if includeBody then e.body else []
    truncated := includeBody && e.truncated }

theorem Exchange.hostHeader?_shown (e : Exchange) (includeHeaders includeBody : Bool) :
    (e.shown includeHeaders includeBody).hostHeader? = e.hostHeader? := by
  cases includeHeaders with
  | true => rfl
  | false =>
    rw [hostHeader?_eq]
    change hostValue? (e.hostHeader?.map fun value => ("host", value)).toList = e.hostHeader?
    cases e.hostHeader? with
    | none => rfl
    | some value => exact hostValue?_cons_of_host (by decide) value []

/-- Sides that agree in what is always shown, and where anything else is shown in that
too, show the same. -/
theorem Exchange.shown_congr {e f : Exchange} {includeHeaders includeBody : Bool}
    (hframe : { e with headers := [], body := [], truncated := false }
      = { f with headers := [], body := [], truncated := false })
    (hhost : e.hostHeader? = f.hostHeader?)
    (hheaders : includeHeaders = true → e.headers = f.headers)
    (hbody : includeBody = true → e.body = f.body ∧ e.truncated = f.truncated) :
    e.shown includeHeaders includeBody = f.shown includeHeaders includeBody := by
  have hshown : ∀ x : Exchange, x.shown includeHeaders includeBody
      = { ({ x with headers := [], body := [], truncated := false } : Exchange) with
          headers := (x.shown includeHeaders includeBody).headers
          body := (x.shown includeHeaders includeBody).body
          truncated := (x.shown includeHeaders includeBody).truncated } := fun x => rfl
  have hheadersShown : (e.shown includeHeaders includeBody).headers
      = (f.shown includeHeaders includeBody).headers := by
    cases includeHeaders with
    | true => exact hheaders rfl
    | false => exact congrArg (fun host => (host.map fun value => ("host", value)).toList) hhost
  have hbodyShown : (e.shown includeHeaders includeBody).body
      = (f.shown includeHeaders includeBody).body
      ∧ (e.shown includeHeaders includeBody).truncated
        = (f.shown includeHeaders includeBody).truncated := by
    cases includeBody with
    | true => exact hbody rfl
    | false => exact ⟨rfl, rfl⟩
  rw [hshown e, hshown f, hframe, hheadersShown, hbodyShown.1, hbodyShown.2]

/-- **A record depends on what is shown.** -/
theorem Recorder.write_shown (r : Recorder) (e : Exchange) (includeBody : Bool) :
    r.write (e.shown r.includesHeaders includeBody) includeBody = r.write e includeBody := by
  have hhost : (r.masker.maskExchange (e.shown r.includesHeaders includeBody)).host?
      = (r.masker.maskExchange e).host? := by
    rw [host?_maskExchange, host?_maskExchange, e.hostHeader?_shown]
    rfl
  have hdocument : (r.masker.maskExchange (e.shown r.includesHeaders includeBody)).toJson
      r.includesHeaders includeBody
      = (r.masker.maskExchange e).toJson r.includesHeaders includeBody := by
    unfold Exchange.toJson
    rw [hhost]
    cases r.includesHeaders <;> cases includeBody <;> rfl
  unfold write Exchange.record
  rw [hdocument]
  rfl

/-! ## Levels -/

namespace Recorder

/-- **Headers are hidden** below the level of that name. -/
def HidesHeaders (r : Recorder) : Prop := r.level = .none ∨ r.level = .basic

/-- **The body of a request is hidden** below full detail. -/
def HidesRequestBody (r : Recorder) : Prop := r.level ≠ .full

/-- **The body of a response is hidden** always where the status is about credentials or quotas, and
below full detail unless it is an error; at level none it is hidden for errors too. -/
def HidesResponseBody (r : Recorder) (status : Status) : Prop :=
  r.level = .none ∨ status.code ∈ [401, 403, 429]
    ∨ r.level ≠ .full ∧ ¬(400 ≤ status.code ∧ status.code < 600)

theorem includesHeaders_eq_false_iff {r : Recorder} :
    r.includesHeaders = false ↔ r.HidesHeaders := by
  unfold includesHeaders HidesHeaders
  cases r.level <;> decide

theorem includesRequestBody_eq_false_iff {r : Recorder} :
    r.includesRequestBody = false ↔ r.HidesRequestBody := by
  unfold includesRequestBody HidesRequestBody
  cases r.level <;> decide

theorem contains_withheldStatuses (status : Status) :
    withheldStatuses.contains status = true ↔ status.code ∈ [401, 403, 429] := by
  obtain ⟨code⟩ := status
  simp [withheldStatuses, Status.unauthorized, Status.forbidden, Status.tooManyRequests]

theorem isError_iff (status : Status) :
    (status.isClientError || status.isServerError) = true
      ↔ 400 ≤ status.code ∧ status.code < 600 := by
  simp only [Status.isClientError, Status.isServerError, Bool.or_eq_true, Bool.and_eq_true,
    decide_eq_true_iff]
  omega

theorem includesResponseBody_eq_false_iff {r : Recorder} {status : Status} :
    r.includesResponseBody status = false ↔ r.HidesResponseBody status := by
  unfold includesResponseBody HidesResponseBody
  rw [← contains_withheldStatuses, ← isError_iff]
  cases r.level <;> cases withheldStatuses.contains status <;>
    cases status.isClientError || status.isServerError <;> decide

/-- **Headers agree** at the level of a recorder: they are the same, or hidden and
with the same host. -/
def HeadersAgree (r : Recorder) (h h' : Headers) : Prop :=
  h = h' ∨ r.HidesHeaders ∧ h.host? = h'.host?

theorem HeadersAgree.host {r : Recorder} {h h' : Headers} (hagree : r.HeadersAgree h h') :
    h.host? = h'.host? := by
  rcases hagree with rfl | ⟨-, hhost⟩
  · rfl
  · exact hhost

theorem HeadersAgree.eq_of_included {r : Recorder} {h h' : Headers} (hagree : r.HeadersAgree h h')
    (hincluded : r.includesHeaders = true) : h = h' := by
  rcases hagree with heq | ⟨hhidden, -⟩
  · exact heq
  · cases hincluded.symm.trans (includesHeaders_eq_false_iff.2 hhidden)

/-- **Sides have the same record** if they agree in what every level shows, in their headers as far
as those are shown, and in their bodies unless those are not. -/
theorem write_eq_of_agree {r : Recorder} {e f : Exchange} {includeBody : Bool} {h h' : Headers}
    (hframe : { e with headers := [], body := [], truncated := false }
      = { f with headers := [], body := [], truncated := false })
    (he : e.headers = h.toPairs) (hf : f.headers = h'.toPairs) (hagree : r.HeadersAgree h h')
    (hbody : includeBody = true → e.body = f.body ∧ e.truncated = f.truncated) :
    r.write e includeBody = r.write f includeBody := by
  have hhost : e.hostHeader? = f.hostHeader? := by
    rw [hostHeader?_eq, hostHeader?_eq, he, hf, hostValue?_toPairs, hostValue?_toPairs, hagree.host]
  have hheaders : r.includesHeaders = true → e.headers = f.headers := by
    intro hincluded
    rw [he, hf, hagree.eq_of_included hincluded]
  rw [← r.write_shown e, ← r.write_shown f, Exchange.shown_congr hframe hhost hheaders hbody]

end Recorder

/-! ## What a conclusion writes -/

/-- The copy of a body of which some bytes have been read. -/
def CaptureBuffer.ofRead (limit : Nat) (read : Bytes) : CaptureBuffer :=
  { limit, data := read.take limit, truncated := decide (limit < read.length) }

theorem copyOf_eq_ofRead (limit : Nat) (polls : List Poll) :
    copyOf limit polls = CaptureBuffer.ofRead limit (readBytes polls) := by
  unfold CaptureBuffer.ofRead
  rw [← copyOf_data, ← copyOf_truncated]
  exact congrArg (CaptureBuffer.mk · _ _) (copyOf_limit limit polls)

/-- **Conclusion** of an exchange with a response: the head of the response, what had been read of
the two bodies by then, and when it was. -/
structure Conclusion where
  status : Status
  headers : Headers
  requestRead : Bytes
  responseRead : Bytes
  now : Nat
  deriving DecidableEq, Repr

namespace Conclusion

/-- The request side as it is recorded. -/
def requestSide (c : Conclusion) (r : Recorder) (note : RequestNote) : Exchange :=
  note.requestSide (.ofRead r.requestLimit c.requestRead)

/-- The response side as it is recorded. -/
def responseSide (c : Conclusion) (r : Recorder) (note : RequestNote) : Exchange :=
  note.responseSide c.status c.headers (.ofRead (r.responseLimit c.status) c.responseRead) c.now

variable {r : Recorder} {origin : Origin} {request request' : Request} {startedAt startedAt' : Nat}
  {c c' : Conclusion}

/-- **The record of a request** shows nothing of its body below full detail, and of its headers
only what agrees. -/
theorem write_requestSide_eq (hmethod : request.method = request'.method)
    (huri : request.uri.display = request'.uri.display) (hid : request.id? = request'.id?)
    (hheaders : r.HeadersAgree request.headers request'.headers)
    (hread : r.HidesRequestBody ∨ c.requestRead = c'.requestRead) :
    r.write (c.requestSide r (RequestNote.ofRequest origin request startedAt)) r.includesRequestBody
      = r.write (c'.requestSide r (RequestNote.ofRequest origin request' startedAt'))
        r.includesRequestBody := by
  refine Recorder.write_eq_of_agree ?_ rfl rfl hheaders fun hincluded => ?_
  · simp only [requestSide, RequestNote.requestSide, RequestNote.ofRequest, hmethod, huri, hid]
  · rcases hread with hhidden | hread
    · cases hincluded.symm.trans (Recorder.includesRequestBody_eq_false_iff.2 hhidden)
    · simp only [requestSide, RequestNote.requestSide, hread, and_self]

/-- **The record of a response** shows nothing of a body that is hidden, and of the headers
only what agrees. -/
theorem write_responseSide_eq (hmethod : request.method = request'.method)
    (huri : request.uri.display = request'.uri.display) (hid : request.id? = request'.id?)
    (hstatus : c.status = c'.status) (htime : c.now - startedAt = c'.now - startedAt')
    (hheaders : r.HeadersAgree c.headers c'.headers)
    (hread : r.HidesResponseBody c.status ∨ c.responseRead = c'.responseRead) :
    r.write (c.responseSide r (RequestNote.ofRequest origin request startedAt))
      (r.includesResponseBody c.status)
      = r.write (c'.responseSide r (RequestNote.ofRequest origin request' startedAt'))
          (r.includesResponseBody c'.status) := by
  rw [← hstatus]
  refine Recorder.write_eq_of_agree ?_ rfl rfl hheaders fun hincluded => ?_
  · simp only [responseSide, RequestNote.responseSide, RequestNote.ofRequest, hmethod, huri, hid,
      hstatus, htime]
  · rcases hread with hhidden | hread
    · cases hincluded.symm.trans (Recorder.includesResponseBody_eq_false_iff.2 hhidden)
    · simp only [responseSide, RequestNote.responseSide, hstatus, hread, and_self]

end Conclusion

namespace Session

variable {σ τ : Type} {r : Recorder} {requests : Source σ} {responses : Source τ}

/-- **An exchange is concluded on a run** by the first step that ends the body of its response. The
conclusion has the time of that step, the head of the response, and all that its readers have seen
of the two bodies after the step. -/
def ConcludedBy (r : Recorder) (requests : Source σ) (responses : Source τ) (s : Session σ τ)
    (actions : List (SessionAction τ)) (c : Conclusion) : Prop :=
  ∃ before a after, actions = before ++ a :: after ∧ s.Open r requests responses before
    ∧ (s.run r requests responses before).Ends responses a
    ∧ (a = .readResponse c.now ∨ a = .dropResponse c.now)
    ∧ (∃ response, (s.run r requests responses before).exchange.response = some response
        ∧ response.status = c.status ∧ response.headers = c.headers)
    ∧ readBytes (s.run r requests responses (before ++ [a])).requestPolls = c.requestRead
    ∧ readBytes (s.run r requests responses (before ++ [a])).responsePolls = c.responseRead

/-- **The step that ends a response body** writes both sides, with copies of all that was read. -/
theorem records_of_ends (requests : Source σ) {s : Session σ τ} (hfaithful : Faithful r s)
    {response : RecordedResponse τ} (hreading : s.Reading response) {a : SessionAction τ}
    (hends : s.Ends responses a) {now : Nat}
    (hnow : a = .readResponse now ∨ a = .dropResponse now) :
    let next := s.advance r requests responses a
    (s.emission r responses a).records
      = [r.write (s.exchange.note.requestSide (copyOf r.requestLimit next.requestPolls))
          r.includesRequestBody,
         r.write (s.exchange.note.responseSide response.status response.headers
           (copyOf (r.responseLimit response.status) next.responsePolls) now)
           (r.includesResponseBody response.status)] := by
  intro next
  have hnext : Faithful r next := hfaithful.advance requests responses a
  rcases hnow with rfl | rfl
  · -- the poll ends the body, so the hook is told how and sees the response with the last bytes
    -- copied
    obtain ⟨outcome, houtcome⟩ :=
      Option.isSome_iff_exists.1 (hreading.ends_readResponse_iff.1 hends)
    obtain ⟨hphase, hresponse, harmed⟩ := hreading
    have hadvance : next.exchange.response
        = some { response with body := (response.body.poll responses).2.2 }
        ∧ next.exchange.request = s.exchange.request := by
      change (s.advance r requests responses (.readResponse now)).exchange.response = _ ∧
        (s.advance r requests responses (.readResponse now)).exchange.request = _
      rw [advance, if_pos hphase, RecordedExchange.pollResponse, hresponse]
      exact ⟨rfl, rfl⟩
    rw [← hnext.request, ← hnext.response _ hadvance.1, hadvance.2, emission, if_pos hphase,
      RecordedExchange.pollResponse, hresponse]
    dsimp only
    rw [Tee.poll_outcome, if_pos harmed, houtcome]
    rfl
  · have hadvance : next.exchange = s.exchange := by
      change (s.advance r requests responses (.dropResponse now)).exchange = s.exchange
      rw [advance, if_pos hreading.1]
    rw [← hnext.request, ← hnext.response response (hadvance ▸ hreading.2.1), hadvance,
      emission_dropResponse hreading]
    rfl

/-- **The records of a concluded exchange** are those of its two sides as its
conclusion has them. -/
theorem records_run_of_concludedBy {origin : Origin} {request : Request} {body : σ}
    {startedAt : Nat} {actions : List (SessionAction τ)} {c : Conclusion}
    (h : (start r origin request body startedAt : Session σ τ).ConcludedBy r requests
      responses actions c) :
    ((start r origin request body startedAt : Session σ τ).run r requests responses actions).records
      = [r.write (c.requestSide r (RequestNote.ofRequest origin request startedAt))
          r.includesRequestBody,
         r.write (c.responseSide r (RequestNote.ofRequest origin request startedAt))
           (r.includesResponseBody c.status)] := by
  obtain ⟨before, a, after, rfl, hopen, hends, hnow, ⟨other, hother, hstatus, hheaders⟩, hrequest,
      hresponse⟩ := h
  let begun : Session σ τ := start r origin request body startedAt
  let ending := begun.run r requests responses before
  have hstart : ¬begun.Settled := fun hsettled => hsettled.1 rfl
  obtain ⟨hunsettled, hnone⟩ := not_settled_run hstart rfl hopen
  obtain ⟨response, hreading⟩ := hends.reading hunsettled
  obtain rfl : other = response := Option.some.inj (hother.symm.trans hreading.2.1)
  have hfaithful : Faithful r ending :=
    faithful_run r requests responses origin request body startedAt before
  have hwritten := records_of_ends requests hfaithful hreading hends hnow
  have hnote : ending.exchange.note = RequestNote.ofRequest origin request startedAt :=
    note_run begun before
  have hsettled : (ending.step r requests responses a).Settled :=
    settled_of_concludes (.ends a hends)
  -- what had been read is what the last step has left
  rw [run_concat] at hrequest hresponse
  change readBytes (ending.advance r requests responses a).requestPolls = c.requestRead at hrequest
  change readBytes (ending.advance r requests responses a).responsePolls
    = c.responseRead at hresponse
  dsimp only at hwritten
  rw [copyOf_eq_ofRead, copyOf_eq_ofRead, hnote, hstatus, hheaders, hrequest, hresponse] at hwritten
  -- nothing was written before the last step, and nothing is written after it
  rw [run_append_cons, (hsettled.run after).2]
  change ending.records ++ (ending.emission r responses a).records = _
  rw [hnone, List.nil_append, hwritten]
  rfl

/-! ## Two exchanges -/

variable {σ' τ' : Type}

/-- **What a level hides.** Two exchanges are made with the same recorder, for requests with
the same method, target and id, and answered with the same status after the same time. Their
bodies may be of any kind, and are read in any way until both responses are gone. Each
exchange has two records.

The records of the requests are the same if the headers of the requests agree, and if the
same has been read of their bodies or those are hidden. The records of the responses are the
same if the headers of the responses agree, and if the same has been read of their bodies or
those are hidden. -/
theorem records_eq_of_hidden (r : Recorder) (requests : Source σ) (responses : Source τ)
    (requests' : Source σ') (responses' : Source τ') (origin : Origin) (request request' : Request)
    (body : σ) (body' : σ') (startedAt startedAt' : Nat) (actions : List (SessionAction τ))
    (actions' : List (SessionAction τ')) (c c' : Conclusion) :
    let begun : Session σ τ := start r origin request body startedAt
    let begun' : Session σ' τ' := start r origin request' body' startedAt'
    begun.ConcludedBy r requests responses actions c →
    begun'.ConcludedBy r requests' responses' actions' c' →
    request.method = request'.method → request.uri.display = request'.uri.display →
      request.id? = request'.id? →
    c.status = c'.status → c.now - startedAt = c'.now - startedAt' →
    ∃ asked answered asked' answered' : TrafficRecord,
      (begun.run r requests responses actions).records = [asked, answered]
        ∧ (begun'.run r requests' responses' actions').records = [asked', answered']
        ∧ (r.HeadersAgree request.headers request'.headers →
            r.HidesRequestBody ∨ c.requestRead = c'.requestRead → asked = asked')
        ∧ (r.HeadersAgree c.headers c'.headers →
            r.HidesResponseBody c.status ∨ c.responseRead = c'.responseRead →
              answered = answered') := by
  intro begun begun' hconcluded hconcluded' hmethod huri hid hstatus htime
  refine ⟨_, _, _, _, records_run_of_concludedBy hconcluded,
    records_run_of_concludedBy hconcluded', ?_, ?_⟩
  · exact fun hheaders hread => Conclusion.write_requestSide_eq hmethod huri hid hheaders hread
  · exact fun hheaders hread =>
      Conclusion.write_responseSide_eq hmethod huri hid hstatus htime hheaders hread

/-- An order with a note in a header and in its body. -/
def orderRequest (note : Bytes) : Request :=
  { method := ⟨"POST"⟩
    uri := { scheme := none, authority := "", path := "/orders", query := none }
    headers := Headers.ofList [(⟨"x-note"⟩, note), (⟨"host"⟩, Bytes.ofString "shop.local")]
    body := Body.stream [.frame (.data note)]
    assignedId := none }

/-- The service reads the order and repeats the note, and the client goes away when
it has read that. -/
def repeated (note : Bytes) : List (SessionAction Body) :=
  [.readRequest,
    .respond Status.ok (Headers.ofList [(⟨"x-note"⟩, note)]) (Body.stream [.frame (.data note)]),
    .readResponse 3, .dropResponse 4]

def repeatedConclusion (note : Bytes) : Conclusion :=
  { status := Status.ok, headers := Headers.ofList [(⟨"x-note"⟩, note)], requestRead := note,
    responseRead := note, now := 4 }

theorem concludedBy_repeated (note : Bytes) :
    (start (Recorder.ofSettings Settings.standard) .inbound (orderRequest note)
      (orderRequest note).body 0
      : Session Body Body).ConcludedBy (Recorder.ofSettings Settings.standard) Body.source
        Body.source (repeated note)
      (repeatedConclusion note) := by
  let r := Recorder.ofSettings Settings.standard
  let begun : Session Body Body := start r .inbound (orderRequest note) (orderRequest note).body 0
  have hreading : ∃ response,
      (begun.run r Body.source Body.source ((repeated note).take 3)).Reading response :=
    ⟨_, rfl, rfl, rfl⟩
  have hstart : ¬begun.Settled := fun hsettled => hsettled.1 rfl
  refine ⟨(repeated note).take 3, .dropResponse 4, [], rfl, ?_, .drop 4 rfl, .inr rfl,
    ⟨_, rfl, rfl, rfl⟩, ?_, ?_⟩
  · exact (open_iff_not_settled hstart rfl).2 (not_settled_iff.2 (.inr hreading))
  · exact List.append_nil note
  · exact List.append_nil note

/-- Two orders whose notes differ leave the same records at the level of the standard settings. -/
theorem records_eq_of_hidden_repeated :
    let r := Recorder.ofSettings Settings.standard
    let run := fun note => (start r .inbound (orderRequest note) (orderRequest note).body 0
      : Session Body Body).run r Body.source Body.source (repeated note)
    r.HidesHeaders ∧ (orderRequest [0x61]).headers ≠ (orderRequest [0x62, 0x63]).headers
      ∧ (run [0x61]).records.length = 2 ∧ (run [0x62, 0x63]).records = (run [0x61]).records := by
  intro r run
  have hhidden : r.HidesHeaders := .inr rfl
  obtain ⟨asked, answered, asked', answered', hrun, hrun', hasked, hanswered⟩ :=
    records_eq_of_hidden r Body.source Body.source Body.source Body.source .inbound
      (orderRequest [0x61]) (orderRequest [0x62, 0x63]) (orderRequest [0x61]).body
      (orderRequest [0x62, 0x63]).body 0 0 (repeated [0x61]) (repeated [0x62, 0x63])
      (repeatedConclusion [0x61]) (repeatedConclusion [0x62, 0x63])
      (concludedBy_repeated [0x61]) (concludedBy_repeated [0x62, 0x63]) rfl rfl rfl rfl rfl
  have hsameAsked : asked = asked' := hasked (.inr ⟨hhidden, by decide⟩) (.inl nofun)
  have hsameAnswered : answered = answered' :=
    hanswered (.inr ⟨hhidden, by decide⟩) (.inl (.inr (.inr (by decide))))
  refine ⟨hhidden, by decide, ?_, ?_⟩
  · exact congrArg List.length hrun
  · exact hrun'.trans (by rw [← hsameAsked, ← hsameAnswered]; exact hrun.symm)

end Session

end Traffic
end Gatehouse
