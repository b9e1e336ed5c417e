/-
What the record of a partly read body shows.

When a reader stops before the end of a body, only a part of it has been copied. Such a part
need not be a JSON document, so a masker with paths cannot find the secrets in it. The record
keeps it private when it shows none of the copied bytes, or shows them as the masked document
that they happen to be.

`keepsPrivate_iff` says exactly when that is so. A copy that has overflowed is dropped; a copy that
is short because the reading stopped, failed or was broken off is not, and is written as it is
unless it is a JSON document. The work is in `Exchange.record_ne_of_body`: a record with a body is
longer than the same record without one, so a body that is not dropped does show.
-/
import Gatehouse.Proofs.Traffic.Session
import Mathlib

set_option autoImplicit false

namespace Gatehouse

/-! ## A further field makes a longer text -/

namespace Json

theorem fieldsTail_longer (before : List (String × Json)) (f : String × Json)
    (after : List (String × Json)) :
    (fieldsTail (before ++ after)).length < (fieldsTail (before ++ f :: after)).length := by
  induction before with
  | nil =>
    rw [List.nil_append, List.nil_append, fieldsTail]
    simp only [List.length_append, List.length_cons]
    omega
  | cons g before ih =>
    rw [List.cons_append, List.cons_append, fieldsTail, fieldsTail]
    simp only [List.length_append, List.length_cons]
    omega

theorem prettyFields_longer (level : Nat) (before : List (String × Json)) (f : String × Json)
    (after : List (String × Json)) :
    (prettyFields level (before ++ after)).length
      < (prettyFields level (before ++ f :: after)).length := by
  induction before with
  | nil =>
    rw [List.nil_append, List.nil_append, prettyFields]
    simp only [List.length_append, List.length_cons]
    omega
  | cons g before ih =>
    rw [List.cons_append, List.cons_append, prettyFields, prettyFields]
    simp only [List.length_append, List.length_cons]
    omega

/-- An object with a further field after its first one has another text. -/
theorem render_further_field (first : String × Json) (before : List (String × Json))
    (f : String × Json) (after : List (String × Json)) :
    (object (first :: before ++ f :: after)).render
      ≠ (object (first :: before ++ after)).render := by
  intro heq
  -- the first field is printed by another function than the others, so the new one goes behind it
  have hlength := congrArg List.length (String.ofList_injective heq)
  have hlonger := fieldsTail_longer before f after
  rw [List.cons_append, List.cons_append, chars, chars] at hlength
  simp only [List.length_append, List.length_cons] at hlength
  omega

/-- The same holds with one entry a line. -/
theorem renderPretty_further_field (first : String × Json) (before : List (String × Json))
    (f : String × Json) (after : List (String × Json)) :
    (object (first :: before ++ f :: after)).renderPretty
      ≠ (object (first :: before ++ after)).renderPretty := by
  intro heq
  have hlength := congrArg List.length (String.ofList_injective heq)
  have hlonger := prettyFields_longer 0 before f after
  rw [List.cons_append, List.cons_append, prettyChars, prettyChars] at hlength
  simp only [List.length_append, List.length_cons] at hlength
  omega

end Json

namespace Traffic

open Gatehouse.Http

/-! ## Bodies in records -/

namespace Exchange

/-- A record that leaves bodies out does not depend on the body. -/
theorem record_excluded (e : Exchange) (body : Bytes) (includeHeaders pretty : Bool) :
    e.record includeHeaders false pretty = { e with body }.record includeHeaders false pretty := rfl

/-- A record that shows a body differs from the one that shows no body. -/
theorem record_ne_of_body (e : Exchange) (hbody : e.body ≠ []) (includeHeaders pretty : Bool) :
    e.record includeHeaders true pretty
      ≠ { e with body := [] }.record includeHeaders true pretty := by
  have hfalse : e.body.isEmpty = false := by simpa using hbody
  -- the fields between the first one and the body, and those after the body
  let before : List (String × Json) :=
    [("type", .string e.side.label), ("method", .string e.method.token), ("uri", .string e.uri)]
      ++ optionalField "host" (e.host?.map .string) ++ [("path", .string e.path)]
      ++ e.responseFields
      ++ (if includeHeaders then
          [("headers",
            .object ((groupByName e.headers).map fun g => (g.1, .array (g.2.map .string))))]
        else [])
  let after : List (String × Json) :=
    (if e.truncated then [("bodyTruncated", .bool true)] else [])
      ++ optionalField "trace" (e.requestId.map fun id => .object [("requestId", .string id)])
  have hwith : e.toJson includeHeaders true
      = .object (("source", .string e.origin.label)
          :: before ++ ("body", bodyValue e.body) :: after) := by
    simp [toJson, before, after, hfalse]
  have hwithout : { e with body := [] }.toJson includeHeaders true
      = .object (("source", .string e.origin.label) :: before ++ after) := by
    simp only [toJson, before, after, List.isEmpty_nil, if_true, List.nil_append, List.cons_append,
      List.append_assoc]
    rfl
  cases pretty with
  | false =>
    simp only [record, hwith, hwithout]
    exact Json.render_further_field _ _ _ _
  | true =>
    simp only [record, hwith, hwithout]
    exact Json.renderPretty_further_field _ _ _ _

end Exchange

/-! ## Records of one side -/

/-- **Side of an exchange that is written down:** what was copied of it, whether its body is
recorded, what its reader has seen, and whether its body announces its end by now. -/
structure SideCopy where
  side : Exchange
  included : Bool
  polls : List Poll
  announced : Bool

namespace SideCopy

/-- Whether the whole body has been copied: its end was reached without a failure, and every byte
that was read is in the copy. -/
def Whole (c : SideCopy) : Prop :=
  (.ended ∈ c.polls ∨ c.announced = true) ∧ (∀ error, Poll.failure error ∉ c.polls)
    ∧ c.side.body = readBytes c.polls

def record (r : Recorder) (c : SideCopy) : TrafficRecord := r.write c.side c.included

/-- The record shows nothing of the copied bytes: it is the record of the side without any. -/
def Withheld (r : Recorder) (c : SideCopy) : Prop :=
  c.record r = r.write { c.side with body := [] } c.included

/-- The copied bytes are a JSON document, and the record shows that document masked. -/
def ShownMasked (r : Recorder) (c : SideCopy) : Prop :=
  ∃ document, Json.ofBytes? c.side.body = some document
    ∧ (c.record r).text =
      { c.side with
        headers := r.masker.maskHeaders c.side.headers
        uri := r.masker.maskUri c.side.uri
        body := Bytes.ofString (r.masker.maskDocument document).render }.record
          r.includesHeaders c.included r.pretty

/-- **Privacy of partial copies:** unless the whole body was copied, its bytes are
withheld or masked. -/
def KeepsPrivate (r : Recorder) (c : SideCopy) : Prop := ¬c.Whole → c.Withheld r ∨ c.ShownMasked r

theorem maskExchange_body_of_none {m : Masker} {e : Exchange} (htruncated : e.truncated = false)
    (hnone : Json.ofBytes? e.body = none) : (m.maskExchange e).body = e.body := by
  simp [Masker.maskExchange, Masker.maskBody, htruncated, hnone]

/-- A copy that has overflowed is dropped. -/
theorem withheld_of_truncated {r : Recorder} (hpaths : r.masker.paths ≠ []) {c : SideCopy}
    (htruncated : c.side.truncated = true) : c.Withheld r := by
  have hnone : r.masker.paths.isEmpty = false := by simpa using hpaths
  simp [Withheld, record, Recorder.write, Masker.maskExchange, htruncated, hnone]

/-- A copy of a document is shown as the masked document. -/
theorem shownMasked_of_document {r : Recorder} (hpaths : r.masker.paths ≠ []) {c : SideCopy}
    (htruncated : c.side.truncated = false) (hbody : c.side.body ≠ []) {document : Json}
    (hdocument : Json.ofBytes? c.side.body = some document) : c.ShownMasked r := by
  have hsome : r.masker.paths.isEmpty = false := by simpa using hpaths
  have hfalse : c.side.body.isEmpty = false := by simpa using hbody
  refine ⟨document, hdocument, ?_⟩
  simp [record, Recorder.write, Masker.maskExchange, Masker.maskBody, htruncated, hsome, hfalse,
    hdocument]

/-- A copy that is recorded, has not overflowed and is no document is written as it is. -/
theorem not_withheld_of_raw {r : Recorder} {c : SideCopy} (hincluded : c.included = true)
    (htruncated : c.side.truncated = false) (hbody : c.side.body ≠ [])
    (hnone : Json.ofBytes? c.side.body = none) : ¬c.Withheld r := by
  intro hwithheld
  -- the masker leaves the copy alone, so this is the case of `record_ne_of_body`
  have hmasked := maskExchange_body_of_none (m := r.masker) htruncated hnone
  have htext := congrArg TrafficRecord.text hwithheld
  rw [record, Recorder.write, Recorder.write, hincluded] at htext
  refine Exchange.record_ne_of_body (r.masker.maskExchange c.side) (hmasked ▸ hbody) _ _
    (htext.trans ?_)
  simp [Masker.maskExchange, Masker.maskBody]

/-- **What becomes of copied bytes in a record.** They are withheld or masked exactly if bodies are
not recorded, the copy has overflowed, there are none, or they are a JSON document. -/
theorem withheld_or_shownMasked_iff {r : Recorder} (hpaths : r.masker.paths ≠ []) (c : SideCopy) :
    c.Withheld r ∨ c.ShownMasked r
      ↔ c.included = false ∨ c.side.truncated = true ∨ c.side.body = []
        ∨ (Json.ofBytes? c.side.body).isSome = true := by
  constructor
  · intro hprivate
    -- if none of the four holds, the copy is written as it is
    by_contra hraw
    simp only [not_or, Bool.not_eq_false, Bool.not_eq_true, Option.isSome_eq_false_iff,
      Option.isNone_iff_eq_none] at hraw
    obtain ⟨hincluded, htruncated, hbody, hnone⟩ := hraw
    rcases hprivate with hwithheld | ⟨document, hdocument, -⟩
    · exact not_withheld_of_raw hincluded htruncated hbody hnone hwithheld
    · exact absurd (hnone.symm.trans hdocument) nofun
  · intro hcases
    -- the order of the masker: first the overflow, then the empty copy, then the document
    by_cases htruncated : c.side.truncated = true
    · exact .inl (withheld_of_truncated hpaths htruncated)
    by_cases hbody : c.side.body = []
    · refine .inl ?_
      rw [Withheld, record, ← hbody]
    rcases hcases with hexcluded | htrue | hnil | hsome
    · refine .inl ?_
      rw [Withheld, record, Recorder.write, Recorder.write, hexcluded]
      exact congrArg _ (Exchange.record_excluded _ _ _ _)
    · exact absurd htrue htruncated
    · exact absurd hnil hbody
    · obtain ⟨document, hdocument⟩ := Option.isSome_iff_exists.1 hsome
      exact .inr (shownMasked_of_document hpaths (by simpa using htruncated) hbody hdocument)

end SideCopy

/-! ## The sides of a session -/

namespace Session

variable {σ τ : Type}

/-- The request side as it stands. -/
def requestCopy (r : Recorder) (requests : Source σ) (s : Session σ τ) : SideCopy :=
  { side := s.exchange.note.requestSide s.exchange.request.capture
    included := r.includesRequestBody
    polls := s.requestPolls
    announced := requests.isEnd s.exchange.request.inner }

/-- The response side as it stands. -/
def responseCopy (r : Recorder) (responses : Source τ) (s : Session σ τ)
    (response : RecordedResponse τ) (now : Nat) : SideCopy :=
  { side := s.exchange.note.responseSide response.status response.headers response.body.capture now
    included := r.includesResponseBody response.status
    polls := s.responsePolls
    announced := responses.isEnd response.body.inner }

/-- The sides of a session that there are. -/
inductive HasSide (r : Recorder) (requests : Source σ) (responses : Source τ) (s : Session σ τ) :
    SideCopy → Prop where
  | request : HasSide r requests responses s (s.requestCopy r requests)
  | response (response : RecordedResponse τ) (now : Nat) (h : s.exchange.response = some response) :
    HasSide r requests responses s (s.responseCopy r responses response now)

/-- How many bytes of a side are copied at most: none if its body is not recorded. -/
def copyLimit (r : Recorder) (c : SideCopy) : Nat := if c.included then r.maxBodyBytes else 0

/-- What a side shows is a faithful copy of what its reader has seen. -/
theorem HasSide.copy_eq {r : Recorder} {requests : Source σ} {responses : Source τ}
    {s : Session σ τ} (h : Faithful r s) {c : SideCopy} (hc : HasSide r requests responses s c) :
    c.side.body = (readBytes c.polls).take (copyLimit r c)
      ∧ c.side.truncated = decide (copyLimit r c < (readBytes c.polls).length) := by
  cases hc with
  | request =>
    have hcopy : s.exchange.request.capture
        = copyOf (copyLimit r (s.requestCopy r requests)) s.requestPolls :=
      h.request
    exact ⟨(congrArg _ hcopy).trans (copyOf_data _ _),
      (congrArg _ hcopy).trans (copyOf_truncated _ _)⟩
  | response response now hresponse =>
    have hcopy : response.body.capture
        = copyOf (copyLimit r (s.responseCopy r responses response now)) s.responsePolls :=
      h.response response hresponse
    exact ⟨(congrArg _ hcopy).trans (copyOf_data _ _),
      (congrArg _ hcopy).trans (copyOf_truncated _ _)⟩

/-- Both records of an exchange that is over are records of its sides. -/
theorem hasSide_of_onHook {r : Recorder} {requests : Source σ} {responses : Source τ}
    {s : Session σ τ} {response : RecordedResponse τ}
    (hresponse : s.exchange.response = some response) {x : RecordedExchange σ τ}
    (hnote : x.note = s.exchange.note) (hrequest : x.request = s.exchange.request)
    {outcome : Option BodyOutcome} {now : Nat} {record : TrafficRecord}
    (hrecord : record ∈ (x.onHook r response outcome now).records) :
    ∃ c, HasSide r requests responses s c ∧ record = c.record r := by
  cases outcome with
  | none => exact absurd hrecord List.not_mem_nil
  | some outcome =>
    simp only [RecordedExchange.onHook, RecordedExchange.finished, hnote, hrequest, List.mem_cons,
      List.not_mem_nil, or_false] at hrecord
    rcases hrecord with rfl | rfl
    · exact ⟨_, .request, rfl⟩
    · exact ⟨_, .response response now hresponse, rfl⟩

/-- **What is written** in a step is the record of a side as it stands after the step. -/
theorem hasSide_of_emission (r : Recorder) (requests : Source σ) (responses : Source τ)
    (s : Session σ τ) (a : SessionAction τ) {record : TrafficRecord}
    (hrecord : record ∈ (s.emission r responses a).records) :
    ∃ c, HasSide r requests responses (s.step r requests responses a) c ∧ record = c.record r := by
  cases a with
  | readRequest => exact absurd hrecord List.not_mem_nil
  | respond status headers body => exact absurd hrecord List.not_mem_nil
  | readResponse now =>
    -- the two records come with the end of the body, which this poll may have seen
    by_cases hphase : s.phase = .answered
    case neg => simp [emission, hphase, Emission.none] at hrecord
    case pos =>
      rw [emission, if_pos hphase, RecordedExchange.pollResponse] at hrecord
      rw [step, advance, if_pos hphase, RecordedExchange.pollResponse]
      cases hresponse : s.exchange.response with
      | none => simp [hresponse, Emission.none] at hrecord
      | some response =>
        simp only [hresponse] at hrecord
        exact hasSide_of_onHook rfl rfl rfl hrecord
  | dropResponse now =>
    by_cases hphase : s.phase = .answered
    case neg => simp [emission, hphase, Emission.none] at hrecord
    case pos =>
      rw [emission, if_pos hphase, RecordedExchange.dropResponse] at hrecord
      rw [step, advance, if_pos hphase]
      cases hresponse : s.exchange.response with
      | none => simp [hresponse, Emission.none] at hrecord
      | some response =>
        simp only [hresponse] at hrecord
        exact hasSide_of_onHook (s := _) (by exact hresponse) rfl rfl hrecord
  | fail error =>
    by_cases hphase : s.phase = .waiting
    case neg => simp [emission, hphase, Emission.none] at hrecord
    case pos =>
      -- a failure writes the request alone
      rw [emission, if_pos hphase] at hrecord
      rw [step, advance, if_pos hphase]
      exact ⟨_, .request, List.mem_singleton.1 hrecord⟩

/-- A side keeps its partial copy private exactly if the whole body was copied, bodies are
not recorded, more was read than is copied at most, nothing was read, or what was read is
a JSON document. -/
theorem keepsPrivate_iff {r : Recorder} (hpaths : r.masker.paths ≠ []) {requests : Source σ}
    {responses : Source τ} {s : Session σ τ} (h : Faithful r s) {c : SideCopy}
    (hc : HasSide r requests responses s c) :
    c.KeepsPrivate r ↔ c.Whole ∨ c.included = false ∨ r.maxBodyBytes < (readBytes c.polls).length
      ∨ readBytes c.polls = [] ∨ (Json.ofBytes? (readBytes c.polls)).isSome = true := by
  rw [SideCopy.KeepsPrivate, SideCopy.withheld_or_shownMasked_iff hpaths, ← or_iff_not_imp_left]
  refine or_congr_right ?_
  cases hincluded : c.included with
  | false => simp
  | true =>
    -- only here is the limit of the copy the one that the settings name
    obtain ⟨hbody, htruncated⟩ := hc.copy_eq h
    rw [copyLimit, hincluded, if_pos rfl] at hbody htruncated
    refine or_congr_right ?_
    rw [htruncated, decide_eq_true_eq]
    by_cases hover : r.maxBodyBytes < (readBytes c.polls).length
    · simp only [hover, true_or]
    · -- without an overflow the copy is all that was read
      rw [hbody, List.take_of_length_le (by omega)]

/-- **Privacy of partial captures.** On every run of a recorded exchange, whatever the bodies are
and however far they are read, a record that is written is the record of one of the two sides as
it stands, and a side whose body has not been copied whole keeps its bytes private exactly if its
body is not recorded, the copy has overflowed, nothing was read, or what was read is a JSON
document by itself. -/
theorem keepsPrivate_run_iff (settings : Settings) (henabled : settings.masking.enabled = true)
    (hpath : ∃ field ∈ settings.masking.jsonBodyFields, (JsonPath.ofString? field).isSome = true)
    (requests : Source σ) (responses : Source τ) (origin : Origin) (request : Request) (body : σ)
    (startedAt : Nat) (actions : List (SessionAction τ)) :
    let r := Recorder.ofSettings settings
    let s := (start r origin request body startedAt).run r requests responses actions
    (∀ a, ∀ record ∈ (s.emission r responses a).records,
        ∃ c, HasSide r requests responses (s.step r requests responses a) c ∧ record = c.record r)
      ∧ ∀ c, HasSide r requests responses s c →
        (c.KeepsPrivate r ↔ c.Whole ∨ c.included = false
          ∨ settings.recording.maxBodyBytes < (readBytes c.polls).length
          ∨ readBytes c.polls = [] ∨ (Json.ofBytes? (readBytes c.polls)).isSome = true) := by
  intro r s
  -- one usable field is enough for the masker to have a path
  have hpaths : r.masker.paths ≠ [] := by
    obtain ⟨field, hfield, hsome⟩ := hpath
    obtain ⟨path, hread⟩ := Option.isSome_iff_exists.1 hsome
    have hmasker : r.masker.paths
        = settings.masking.jsonBodyFields.filterMap JsonPath.ofString? := by
      simp [r, Recorder.ofSettings, Masker.ofSettings, henabled]
    rw [hmasker]
    exact List.ne_nil_of_mem (List.mem_filterMap.2 ⟨field, hfield, hread⟩)
  have hfaithful : Faithful r s :=
    faithful_run r requests responses origin request body startedAt actions
  exact ⟨fun a record hrecord => hasSide_of_emission r requests responses s a hrecord,
    fun c hc => keepsPrivate_iff hpaths hfaithful hc⟩

/-- Everything is recorded, and passwords are masked. -/
def fullSettings : Settings :=
  { Settings.standard with recording := { RecordingSettings.standard with level := .full } }

/-- A request whose body comes in two pieces; the first one ends behind the password. -/
def login : Request :=
  { method := ⟨"POST"⟩
    uri := { scheme := none, authority := "", path := "/login", query := none }
    headers := Headers.empty
    body := Body.stream [.frame (.data (Bytes.ofString "\x7b\"password\":\"hunter2\",")),
      .frame (.data (Bytes.ofString "\"user\":\"u\"\x7d"))]
    assignedId := none }

/-- The handler reads one piece and answers. -/
def halfRead : List (SessionAction Body) :=
  [.readRequest, .respond Status.ok Headers.empty Body.empty]

theorem keepsPrivate_run_iff_halfRead :
    let s := (start (Recorder.ofSettings fullSettings) .inbound login login.body 0).run
      (Recorder.ofSettings fullSettings) Body.source Body.source halfRead
    fullSettings.masking.enabled = true
      ∧ (∃ field ∈ fullSettings.masking.jsonBodyFields, (JsonPath.ofString? field).isSome = true)
      ∧ ∀ c, HasSide (Recorder.ofSettings fullSettings) Body.source Body.source s c →
        (c.KeepsPrivate (Recorder.ofSettings fullSettings) ↔ c.Whole ∨ c.included = false
          ∨ fullSettings.recording.maxBodyBytes < (readBytes c.polls).length
          ∨ readBytes c.polls = [] ∨ (Json.ofBytes? (readBytes c.polls)).isSome = true) := by
  intro s
  have hpath : ∃ field ∈ fullSettings.masking.jsonBodyFields,
      (JsonPath.ofString? field).isSome = true :=
    ⟨"$.password", List.mem_singleton.2 rfl, by decide⟩
  exact ⟨rfl, hpath,
    (keepsPrivate_run_iff fullSettings rfl hpath Body.source Body.source .inbound login login.body 0
      halfRead).2⟩

/-- The response ends, and a record is written that shows the piece of the request that was read as
it is, password and all. -/
theorem not_keepsPrivate_halfRead :
    let r := Recorder.ofSettings fullSettings
    let s := (start r .inbound login login.body 0).run r Body.source Body.source halfRead
    (s.requestCopy r Body.source).record r ∈ (s.emission r Body.source (.readResponse 0)).records
      ∧ (s.requestCopy r Body.source).side.body = Bytes.ofString "\x7b\"password\":\"hunter2\","
      ∧ ¬(s.requestCopy r Body.source).KeepsPrivate r := by
  intro r s
  have hpaths : r.masker.paths ≠ [] := by decide
  -- the piece breaks off behind a comma
  have hunknown : Json.ofBytes? (Bytes.ofString "\x7b\"password\":\"hunter2\",") = none := by cbv
  refine ⟨List.mem_cons_self, rfl, fun hprivate => ?_⟩
  have hpartial : ¬(s.requestCopy r Body.source).Whole := fun hwhole => by
    rcases hwhole.1 with hended | hannounced
    · exact absurd hended (by decide)
    · exact absurd hannounced (by decide)
  have hraw := (SideCopy.withheld_or_shownMasked_iff hpaths _).1 (hprivate hpartial)
  rcases hraw with hexcluded | htruncated | hnil | hdocument
  · exact absurd hexcluded (by decide)
  · exact absurd htruncated (by decide)
  · exact absurd hnil (by decide)
  · exact absurd (hdocument.symm.trans (congrArg Option.isSome hunknown)) (by decide)

end Session
end Traffic
end Gatehouse
