/-
The records of one exchange.

An exchange concludes once: it fails before there is a response, or the body of its response
ends, fails or is dropped. The step in which that happens writes all records that the exchange
will ever have, one of the request after a failure, and one of each side, request first, after a
response. No step before it writes anything, and neither does any step after it, however often
the bodies are polled then.

An exchange is settled if it cannot fail any more and the hook of its response body is spent. A
settled exchange writes nothing, and an exchange is settled exactly if some step has concluded it
(`open_iff_not_settled`); the rest is in looking at the one step in between.
-/
import Gatehouse.Proofs.Tables
import Gatehouse.Proofs.Traffic.DiagnosticAgreement

set_option autoImplicit false

namespace Gatehouse.Traffic

open Gatehouse.Http

/-! ## What a record shows -/

namespace Exchange

theorem names_optionalField (name : String) (value : Option Json) :
    (optionalField name value).map (·.1) ⊆ [name] := by
  cases value with
  | none => exact List.nil_subset _
  | some value => exact List.Subset.refl _

theorem lookup_optionalField (name : String) (value : Option Json) :
    List.lookup name (optionalField name value) = value := by
  cases value with
  | none => rfl
  | some value => exact List.lookup_cons_self

theorem lookup_optionalField_append {name : String} {rest : List (String × Json)}
    (h : name ∉ rest.map (·.1)) (value : Option Json) :
    List.lookup name (optionalField name value ++ rest) = value := by
  rw [List.lookup_append, lookup_optionalField, Table.lookup_eq_none_of_notMem h, Option.or_none]

/-- The fields that stand between the target and the request id. -/
def middleFields (e : Exchange) (includeHeaders includeBody : Bool) : List (String × Json) :=
  optionalField "host" (e.host?.map .string) ++ [("path", .string e.path)] ++ e.responseFields
    ++ (if includeHeaders then
        [("headers",
          .object ((groupByName e.headers).map fun g => (g.1, .array (g.2.map .string))))]
      else [])
    ++ (if includeBody then
        (if e.body.isEmpty then [] else [("body", bodyValue e.body)])
        ++ (if e.truncated then [("bodyTruncated", .bool true)] else [])
      else [])

theorem toJson_eq (e : Exchange) (includeHeaders includeBody : Bool) :
    e.toJson includeHeaders includeBody
      = .object ([("source", .string e.origin.label), ("type", .string e.side.label),
          ("method", .string e.method.token), ("uri", .string e.uri)]
        ++ (e.middleFields includeHeaders includeBody
          ++ optionalField "trace"
            (e.requestId.map fun id => .object [("requestId", .string id)]))) := by
  -- the same fields in the same order, bracketed otherwise
  rw [toJson, middleFields]
  simp only [List.append_assoc]

/-- The fields that stand between the path and the request id. -/
def detailFields (e : Exchange) (includeHeaders includeBody : Bool) : List (String × Json) :=
  e.responseFields
    ++ (if includeHeaders then
        [("headers",
          .object ((groupByName e.headers).map fun g => (g.1, .array (g.2.map .string))))]
      else [])
    ++ (if includeBody then
        (if e.body.isEmpty then [] else [("body", bodyValue e.body)])
        ++ (if e.truncated then [("bodyTruncated", .bool true)] else [])
      else [])

theorem middleFields_eq (e : Exchange) (includeHeaders includeBody : Bool) :
    e.middleFields includeHeaders includeBody
      = optionalField "host" (e.host?.map .string)
        ++ ("path", .string e.path) :: e.detailFields includeHeaders includeBody := by
  unfold middleFields detailFields
  simp only [List.append_assoc, List.cons_append, List.nil_append]

theorem names_detailFields (e : Exchange) (includeHeaders includeBody : Bool) :
    (e.detailFields includeHeaders includeBody).map (·.1)
      ⊆ ["statusCode", "duration", "headers", "body", "bodyTruncated"] := by
  have hresponse : e.responseFields.map (·.1) ⊆ ["statusCode", "duration"] := by
    unfold responseFields
    cases e.side with
    | request => exact List.nil_subset _
    | response =>
      rw [List.map_append, List.append_subset]
      exact ⟨fun _ h => List.mem_append_left ["duration"] (names_optionalField "statusCode" _ h),
        fun _ h => List.mem_append_right ["statusCode"] (names_optionalField "duration" _ h)⟩
  unfold detailFields
  rw [List.map_append, List.map_append, List.append_subset, List.append_subset]
  refine ⟨⟨fun _ h => List.mem_append_left ["headers", "body", "bodyTruncated"] (hresponse h), ?_⟩,
    ?_⟩
  · split <;> simp
  · split
    · rw [List.map_append, List.append_subset]
      constructor <;> split <;> simp
    · simp

theorem trace_notMem_middleFields (e : Exchange) (includeHeaders includeBody : Bool) :
    "trace" ∉ (e.middleFields includeHeaders includeBody).map (·.1) := by
  rw [middleFields_eq, List.map_append, List.map_cons, List.mem_append, List.mem_cons,
    not_or, not_or]
  refine ⟨fun h => absurd (names_optionalField "host" _ h) (by decide),
    (by decide : "trace" ≠ "path"), fun h => ?_⟩
  exact absurd (e.names_detailFields includeHeaders includeBody h) (by decide)

end Exchange

/-- **A record shows a side of an exchange** of a request: it is a JSON object that names the
origin, the side, the method, the target as it is masked, and the id of the request. -/
structure Shows (r : Recorder) (origin : Origin) (request : Request) (side : Side)
    (record : TrafficRecord) :
    Prop where
  source : record.origin = origin
  document : ∃ document : Json,
    record.text = (if r.pretty then document.renderPretty else document.render)
    ∧ document.field? "source" = some (.string origin.label)
    ∧ document.field? "type" = some (.string side.label)
    ∧ document.field? "method" = some (.string request.method.token)
    ∧ document.field? "uri" = some (.string (r.masker.maskUri request.uri.display))
    ∧ document.field? "trace" = request.id?.map fun id => .object [("requestId", .string id)]

/-- What is written of a side of an exchange shows it. -/
theorem shows_write (r : Recorder) {origin : Origin} {request : Request} (e : Exchange)
    (includeBody : Bool) (horigin : e.origin = origin) (hmethod : e.method = request.method)
    (huri : e.uri = request.uri.display) (hid : e.requestId = request.id?) :
    Shows r origin request e.side (r.write e includeBody) := by
  refine ⟨horigin, (r.masker.maskExchange e).toJson r.includesHeaders includeBody, rfl, ?_⟩
  rw [Exchange.toJson_eq, ← horigin, ← hmethod, ← huri, ← hid]
  refine ⟨rfl, rfl, rfl, rfl, ?_⟩
  -- the id is the last field, and no field before it has its name
  rw [Json.field?, Table.lookup_append_of_notMem (by simp [Table.keys]),
    Table.lookup_append_of_notMem, Exchange.lookup_optionalField]
  · rfl
  · exact Exchange.trace_notMem_middleFields _ _ _

namespace Session

variable {σ τ : Type} {r : Recorder} {requests : Source σ} {responses : Source τ}

/-! ## Conclusions -/

/-- **A step ends the response body:** a poll sees its end, its failure, or a frame behind which it
announces its end, or the body is dropped. -/
inductive Ends (responses : Source τ) (s : Session σ τ) : SessionAction τ → Prop where
  | poll (now : Nat) (response : RecordedResponse τ) (hphase : s.phase = .answered)
      (hresponse : s.exchange.response = some response)
      (hended : (responses.poll response.body.inner).1 = .ended
        ∨ (∃ error, (responses.poll response.body.inner).1 = .failure error)
        ∨ (∃ frame, (responses.poll response.body.inner).1 = .frame frame)
          ∧ responses.isEnd (responses.poll response.body.inner).2 = true) :
    Ends responses s (.readResponse now)
  | drop (now : Nat) (hphase : s.phase = .answered) : Ends responses s (.dropResponse now)

/-- **A step concludes an exchange,** and these are the sides that there are then. -/
inductive Concludes (responses : Source τ) (s : Session σ τ) :
    SessionAction τ → List Side → Prop where
  | fails (error : String) (hwaiting : s.phase = .waiting) :
      Concludes responses s (.fail error) [.request]
  | ends (a : SessionAction τ) (hends : s.Ends responses a) :
      Concludes responses s a [.request, .response]

/-- No step of a run concludes the exchange. -/
def Open (r : Recorder) (requests : Source σ) (responses : Source τ) (s : Session σ τ)
    (actions : List (SessionAction τ)) : Prop :=
  ∀ before a after, actions = before ++ a :: after →
    ∀ sides, ¬(s.run r requests responses before).Concludes responses a sides

theorem not_settled_iff {s : Session σ τ} :
    ¬s.Settled ↔ s.phase = .waiting ∨ ∃ response, s.Reading response := by
  rw [Settled, not_and_or, not_not, not_forall]
  exact or_congr_right (exists_congr fun response => not_not)

/-- A poll ends the reading of a body exactly if it sees the end, a failure, or the last frame. -/
theorem ending_isSome_iff (poll : Poll) (after : τ) :
    (Tee.ending responses poll after).isSome = true
      ↔ poll = .ended ∨ (∃ error, poll = .failure error)
        ∨ (∃ frame, poll = .frame frame) ∧ responses.isEnd after = true := by
  cases poll with
  | pending => simp [Tee.ending]
  | ended => simp [Tee.ending]
  | failure error => simp [Tee.ending]
  | frame frame => cases hend : responses.isEnd after <;> simp [Tee.ending, hend]

theorem Reading.ends_readResponse_iff {s : Session σ τ} {response : RecordedResponse τ}
    (h : s.Reading response) {now : Nat} :
    s.Ends responses (.readResponse now)
      ↔ (Tee.ending responses (responses.poll response.body.inner).1
          (responses.poll response.body.inner).2).isSome = true := by
  rw [ending_isSome_iff]
  constructor
  · intro hends
    cases hends with
    | poll _ other _ hother hended =>
      rw [← Option.some.inj (hother.symm.trans h.2.1)]
      exact hended
  · intro hended
    exact .poll now response h.1 h.2.1 hended

/-! ## What a step writes -/

section

variable {origin : Origin} {request : Request} {startedAt : Nat}

theorem shows_requestSide {x : RecordedExchange σ τ}
    (hnote : x.note = RequestNote.ofRequest origin request startedAt) :
    Shows r origin request .request
      (r.write (x.note.requestSide x.request.capture) r.includesRequestBody) := by
  rw [hnote]
  exact shows_write r
    ((RequestNote.ofRequest origin request startedAt).requestSide x.request.capture) _
    rfl rfl rfl rfl

theorem shows_onHook {x : RecordedExchange σ τ}
    (hnote : x.note = RequestNote.ofRequest origin request startedAt)
    (response : RecordedResponse τ) (outcome : BodyOutcome) (now : Nat) :
    List.Forall₂ (Shows r origin request) [.request, .response]
      (x.onHook r response (some outcome) now).records := by
  have hresponse : Shows r origin request .response
      (r.write (x.note.responseSide response.status response.headers response.body.capture now)
        (r.includesResponseBody response.status)) := by
    rw [hnote]
    exact shows_write r
      ((RequestNote.ofRequest origin request startedAt).responseSide response.status
      response.headers response.body.capture now) _ rfl rfl rfl rfl
  exact .cons (shows_requestSide hnote) (.cons hresponse .nil)

end

theorem emission_dropResponse {s : Session σ τ} {response : RecordedResponse τ}
    (h : s.Reading response) (now : Nat) :
    s.emission r responses (.dropResponse now)
      = s.exchange.onHook r response (some .aborted) now := by
  obtain ⟨hphase, hresponse, harmed⟩ := h
  rw [emission, if_pos hphase, RecordedExchange.dropResponse, hresponse]
  dsimp only
  rw [Tee.drop, if_pos harmed]

/-- A poll tells the hook how it has ended the body, if it has. -/
theorem emission_readResponse {s : Session σ τ} {response : RecordedResponse τ}
    (h : s.Reading response) (now : Nat) :
    ∃ polled : RecordedResponse τ, s.emission r responses (.readResponse now)
      = s.exchange.onHook r polled (Tee.ending responses (responses.poll response.body.inner).1
          (responses.poll response.body.inner).2) now := by
  obtain ⟨hphase, hresponse, harmed⟩ := h
  -- the hook sees the response with all that the poll has copied
  refine ⟨{ response with body := (response.body.poll responses).2.2 }, ?_⟩
  rw [emission, if_pos hphase, RecordedExchange.pollResponse, hresponse]
  dsimp only
  rw [Tee.poll_outcome, if_pos harmed]

/-- An exchange that has not concluded but has a response still reads its body. -/
theorem Ends.reading {s : Session σ τ} {a : SessionAction τ} (h : s.Ends responses a)
    (hopen : ¬s.Settled) :
    ∃ response, s.Reading response := by
  have hanswered : s.phase = .answered := by
    cases h with
    | poll _ _ hphase => exact hphase
    | drop _ hphase => exact hphase
  rcases not_settled_iff.1 hopen with hwaiting | hreading
  · cases hwaiting.symm.trans hanswered
  · exact hreading

/-- **A step that concludes an exchange** writes what it has to, one record for each side. -/
theorem shows_of_concludes {s : Session σ τ} (hopen : ¬s.Settled) {origin : Origin}
    {request : Request} {startedAt : Nat}
    (hnote : s.exchange.note = RequestNote.ofRequest origin request startedAt) {a : SessionAction τ}
    {sides : List Side} (h : s.Concludes responses a sides) :
    List.Forall₂ (Shows r origin request) sides (s.emission r responses a).records := by
  cases h with
  | fails error hwaiting =>
    rw [emission, if_pos hwaiting]
    exact .cons (shows_requestSide hnote) .nil
  | ends a hends =>
    obtain ⟨response, hreading⟩ := hends.reading hopen
    cases hends with
    | drop now =>
      rw [emission_dropResponse hreading]
      exact shows_onHook hnote response .aborted now
    | poll now other hphase hresponse hended =>
      have hsome := hreading.ends_readResponse_iff.1 (.poll now other hphase hresponse hended)
      obtain ⟨polled, hemission⟩ := emission_readResponse (r := r) hreading now
      obtain ⟨outcome, houtcome⟩ := Option.isSome_iff_exists.1 hsome
      rw [hemission, houtcome]
      exact shows_onHook hnote polled outcome now

/-- The hook of the response body of a settled exchange is spent. -/
theorem Settled.hook_spent {s : Session σ τ} (h : s.Settled) (hphase : s.phase = .answered)
    {response : RecordedResponse τ} (hresponse : s.exchange.response = some response) :
    ¬response.body.armed = true :=
  fun harmed => h.2 response ⟨hphase, hresponse, harmed⟩

/-- A settled exchange writes nothing, whatever is done to it. -/
theorem Settled.records_emission {s : Session σ τ} (h : s.Settled) (a : SessionAction τ) :
    (s.emission r responses a).records = [] := by
  cases a with
  | readRequest => rfl
  | respond => rfl
  | fail error => rw [emission, if_neg h.1]; rfl
  | readResponse now =>
    rw [emission]
    split
    case isFalse => rfl
    case isTrue hphase =>
      rw [RecordedExchange.pollResponse]
      cases hresponse : s.exchange.response with
      | none => rfl
      | some response =>
        dsimp only
        rw [Tee.poll_outcome, if_neg (h.hook_spent hphase hresponse)]
        rfl
  | dropResponse now =>
    rw [emission]
    split
    case isFalse => rfl
    case isTrue hphase =>
      rw [RecordedExchange.dropResponse]
      cases hresponse : s.exchange.response with
      | none => rfl
      | some response =>
        dsimp only
        rw [Tee.drop, if_neg (h.hook_spent hphase hresponse)]
        rfl

/-! ## Before and after the conclusion -/

theorem reading_respond (r : Recorder) (requests : Source σ) (responses : Source τ)
    {s : Session σ τ} (h : s.phase = .waiting) (status : Status) (headers : Headers) (body : τ) :
    ∃ response,
      (s.advance r requests responses (.respond status headers body)).Reading response := by
  rw [advance, if_pos h]
  exact ⟨_, rfl, rfl, rfl⟩

/-- A poll that does not end a body writes nothing, and the body can be polled again. -/
theorem Reading.readResponse (r : Recorder) (requests : Source σ) {s : Session σ τ}
    {response : RecordedResponse τ} (h : s.Reading response) {now : Nat}
    (hends : ¬s.Ends responses (.readResponse now)) :
    (s.emission r responses (.readResponse now)).records = []
      ∧ ∃ next, (s.advance r requests responses (.readResponse now)).Reading next := by
  rw [h.ends_readResponse_iff, Option.not_isSome_iff_eq_none] at hends
  obtain ⟨polled, hemission⟩ := emission_readResponse (r := r) h now
  obtain ⟨hphase, hresponse, harmed⟩ := h
  constructor
  · rw [hemission, hends]
    rfl
  · rw [advance, if_pos hphase, RecordedExchange.pollResponse, hresponse]
    refine ⟨_, hphase, rfl, ?_⟩
    change (response.body.poll responses).2.2.armed = true
    rw [Tee.poll_armed, hends, harmed]
    rfl

/-- **A step that does not conclude an exchange** writes nothing, and the exchange can
still conclude. -/
theorem step_of_not_concludes (r : Recorder) (requests : Source σ) {s : Session σ τ}
    (hopen : ¬s.Settled) {a : SessionAction τ} (h : ∀ sides, ¬s.Concludes responses a sides) :
    (s.emission r responses a).records = [] ∧ ¬(s.advance r requests responses a).Settled := by
  rcases not_settled_iff.1 hopen with hwaiting | ⟨response, hreading⟩
  · -- there is no response that could be polled or dropped
    have hnotAnswered : ¬s.phase = .answered := fun hanswered => by
      cases hwaiting.symm.trans hanswered
    cases a with
    | readRequest => exact ⟨rfl, not_settled_iff.2 (.inl hwaiting)⟩
    | respond status headers body =>
      exact ⟨rfl,
        not_settled_iff.2
          (.inr (reading_respond r requests responses hwaiting status headers body))⟩
    | readResponse now =>
      rw [emission, advance, if_neg hnotAnswered, if_neg hnotAnswered]
      exact ⟨rfl, hopen⟩
    | dropResponse now =>
      rw [emission, advance, if_neg hnotAnswered, if_neg hnotAnswered]
      exact ⟨rfl, hopen⟩
    | fail error => exact absurd (.fails error hwaiting) (h [.request])
  · -- the response is there, and polls of its body are the only steps that could write
    have hnotWaiting : ¬s.phase = .waiting := fun hwaiting => by
      cases hwaiting.symm.trans hreading.1
    cases a with
    | readRequest => exact ⟨rfl, not_settled_iff.2 (.inr ⟨response, hreading⟩)⟩
    | respond =>
      rw [advance, if_neg hnotWaiting]
      exact ⟨rfl, hopen⟩
    | fail error =>
      rw [emission, advance, if_neg hnotWaiting, if_neg hnotWaiting]
      exact ⟨rfl, hopen⟩
    | dropResponse now => exact absurd (.ends _ (.drop now hreading.1)) (h [.request, .response])
    | readResponse now =>
      have hnotEnds : ¬s.Ends responses (.readResponse now) := fun hends => h _ (.ends _ hends)
      obtain ⟨hnothing, hnext⟩ := hreading.readResponse r requests hnotEnds
      exact ⟨hnothing, not_settled_iff.2 (.inr hnext)⟩

/-- **A concluded exchange is settled.** -/
theorem settled_of_concludes {s : Session σ τ} {a : SessionAction τ} {sides : List Side}
    (h : s.Concludes responses a sides) : (s.advance r requests responses a).Settled := by
  cases h with
  | fails error hwaiting =>
    rw [advance, if_pos hwaiting]
    exact settled_of_over rfl
  | ends a hends =>
    cases hends with
    | drop now hphase =>
      rw [advance, if_pos hphase]
      exact settled_of_over rfl
    | poll now response hphase hresponse hended =>
      refine ⟨?_, fun next hnext => ?_⟩
      · rw [advance, if_pos hphase]
        intro hwaiting
        cases hphase.symm.trans hwaiting
      · -- a body that could be read on would not have been ended by the poll
        obtain ⟨other, hother, hending⟩ := reading_of_pollResponse hnext
        have hsome := hother.ends_readResponse_iff.1 (.poll now response hphase hresponse hended)
        rw [hending] at hsome
        cases hsome

theorem Settled.run {s : Session σ τ} (h : s.Settled) (actions : List (SessionAction τ)) :
    (s.run r requests responses actions).Settled
      ∧ (s.run r requests responses actions).records = s.records := by
  refine run_induction (motive := fun reached => reached.Settled ∧ reached.records = s.records)
    ⟨h, rfl⟩ ?_ actions
  rintro reached a ⟨hsettled, hrecords⟩
  refine ⟨hsettled.advance a, ?_⟩
  change reached.records ++ (reached.emission r responses a).records = s.records
  rw [hsettled.records_emission a, List.append_nil, hrecords]

/-! ## Runs -/

theorem Open.of_concat {s : Session σ τ} {actions : List (SessionAction τ)} {a : SessionAction τ}
    (h : s.Open r requests responses (actions ++ [a])) :
    s.Open r requests responses actions
      ∧ ∀ sides, ¬(s.run r requests responses actions).Concludes responses a sides :=
  forall_place_concat_iff.1 h

theorem run_append_cons (s : Session σ τ) (before : List (SessionAction τ)) (a : SessionAction τ)
    (after : List (SessionAction τ)) :
    s.run r requests responses (before ++ a :: after)
      = ((s.run r requests responses before).step r requests responses a).run r requests
        responses after := by
  rw [run, List.foldl_append]
  rfl

/-- **As long as no step has concluded an exchange** nothing is written, and it can
still conclude. -/
theorem not_settled_run {s : Session σ τ} (hstart : ¬s.Settled) (hnone : s.records = [])
    {actions : List (SessionAction τ)} (h : s.Open r requests responses actions) :
    ¬(s.run r requests responses actions).Settled
      ∧ (s.run r requests responses actions).records = [] := by
  induction actions using List.reverseRecOn with
  | nil => exact ⟨hstart, hnone⟩
  | append_singleton actions a ih =>
    obtain ⟨hbefore, hstep⟩ := h.of_concat
    obtain ⟨hopen, hrecords⟩ := ih hbefore
    obtain ⟨hnothing, hnext⟩ := step_of_not_concludes r requests hopen hstep
    rw [run_concat]
    refine ⟨hnext, ?_⟩
    change (s.run r requests responses actions).records ++ _ = []
    rw [hrecords, hnothing, List.append_nil]

/-- An exchange has been concluded on a run exactly if it is settled. -/
theorem open_iff_not_settled {s : Session σ τ} (hstart : ¬s.Settled) (hnone : s.records = [])
    {actions : List (SessionAction τ)} :
    s.Open r requests responses actions ↔ ¬(s.run r requests responses actions).Settled := by
  refine ⟨fun hopen => (not_settled_run hstart hnone hopen).1, ?_⟩
  -- a step that had concluded the exchange would have settled it for good
  rintro hunsettled before a after rfl sides hconcludes
  have hsettled : ((s.run r requests responses before).step r requests responses a).Settled :=
    settled_of_concludes hconcludes
  rw [run_append_cons] at hunsettled
  exact hunsettled (hsettled.run after).1

/-- **The records of an exchange** are written once. On every run, whatever the bodies are and
however they are polled: as long as no step has failed the exchange or ended its response body,
nothing has been written; the first step that does writes one record for each side, of the request
alone after a failure, and of the request and then of the response otherwise, all with the origin,
the method, the target and the id of the request; and nothing is written after it. -/
theorem writtenOnce_run (r : Recorder) (requests : Source σ) (responses : Source τ)
    (origin : Origin) (request : Request) (body : σ) (startedAt : Nat) :
    let begun : Session σ τ := start r origin request body startedAt
    (∀ actions, begun.Open r requests responses actions →
        (begun.run r requests responses actions).records = [])
      ∧ ∀ before a sides, begun.Open r requests responses before →
        (begun.run r requests responses before).Concludes responses a sides →
        ∃ records,
          ((begun.run r requests responses before).emission r responses a).records = records
          ∧ List.Forall₂ (Shows r origin request) sides records
          ∧ ∀ after, (begun.run r requests responses (before ++ a :: after)).records = records := by
  intro begun
  have hstart : ¬begun.Settled := fun hsettled => hsettled.1 rfl
  refine ⟨fun actions hopen => (not_settled_run hstart rfl hopen).2,
    fun before a sides hopen hconcludes => ?_⟩
  obtain ⟨hunsettled, hnone⟩ := not_settled_run hstart rfl hopen
  have hnote : (begun.run r requests responses before).exchange.note
      = RequestNote.ofRequest origin request startedAt := note_run begun before
  have hshows := shows_of_concludes (r := r) hunsettled hnote hconcludes
  refine ⟨_, rfl, hshows, fun after => ?_⟩
  have hsettled : ((begun.run r requests responses before).step r requests responses a).Settled :=
    settled_of_concludes hconcludes
  rw [run_append_cons, (hsettled.run after).2]
  change (begun.run r requests responses before).records ++ _ = _
  rw [hnone, List.nil_append]

/-- The client goes away in the middle of the response body, and then polls it again and drops it
once more: the two records that the first drop has written are all there are. -/
theorem writtenOnce_run_halfSent :
    let r := Recorder.ofSettings logInSettings
    let begun : Session Body Body := start r .inbound (logInRequest "abc") Body.empty 0
    let s := begun.run r Body.source Body.source (halfSent.take 2)
    r.level ≠ .none ∧ begun.Open r Body.source Body.source (halfSent.take 2)
      ∧ s.Concludes Body.source (.dropResponse 2) [.request, .response]
      ∧ s.records = []
      ∧ ∃ records, (s.emission r Body.source (.dropResponse 2)).records = records
        ∧ List.Forall₂ (Shows r .inbound (logInRequest "abc")) [.request, .response] records
        ∧ (begun.run r Body.source Body.source
            (halfSent ++ [.readResponse 3, .dropResponse 4])).records
          = records := by
  intro r begun s
  have hreading : ∃ response, s.Reading response := ⟨_, rfl, rfl, rfl⟩
  have hstart : ¬begun.Settled := fun hsettled => hsettled.1 rfl
  have hopen : begun.Open r Body.source Body.source (halfSent.take 2) :=
    (open_iff_not_settled hstart rfl).2 (not_settled_iff.2 (.inr hreading))
  have hconcludes : s.Concludes Body.source (.dropResponse 2) [.request, .response] :=
    .ends _ (.drop 2 rfl)
  obtain ⟨hnone, honce⟩ :=
    writtenOnce_run r Body.source Body.source .inbound (logInRequest "abc") Body.empty 0
  obtain ⟨records, hwritten, hshows, hafter⟩ :=
    honce (halfSent.take 2) (.dropResponse 2) _ hopen hconcludes
  exact ⟨by decide, hopen, hconcludes, hnone _ hopen, records, hwritten, hshows, hafter _⟩

end Session
end Gatehouse.Traffic
