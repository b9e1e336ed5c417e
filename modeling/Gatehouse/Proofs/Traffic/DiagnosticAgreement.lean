/-
Diagnostics and masked query values.

The records of an exchange do not depend on masked query values, and neither does anything that its
readers see. Its diagnostics are another matter. They say that an exchange was cut short: it failed
before there was a response, or its response body failed or was dropped before its end. What is cut
short is described without the target (`Interrupts`), and each exchange is cut short at most once;
the event shows the target as it was noted, and that is before masking.

So two exchanges whose targets differ in masked values have the same diagnostics exactly if they are
not cut short (`diagnostics_run_eq_iff`). The second exchange is the first one with another target
(`withTarget`), and the work is in seeing that no step looks at the target except to write it down.
-/
import Gatehouse.Proofs.Places
import Gatehouse.Proofs.Traffic.MaskedAgreement
import Gatehouse.Proofs.Traffic.Session

set_option autoImplicit false

namespace Gatehouse.Traffic

open Gatehouse.Http

/-- **Two requests agree except for masked query values.** -/
structure QueriesAgree (s : MaskingSettings) (q q' : Request) : Prop where
  target : Relation.EqvGen (TargetChange s) q.uri.display q'.uri.display
  rest : { q with uri := q'.uri } = q'

/-! ## What a tee tells its hook -/

namespace Tee

variable {σ : Type} (src : Source σ) (t : Tee σ)

/-- A hook is told how a poll ends the reading, as long as it is armed. -/
theorem poll_outcome :
    (t.poll src).2.1
      = if t.armed then ending src (src.poll t.inner).1 (src.poll t.inner).2 else none := by
  unfold poll
  rcases src.poll t.inner with ⟨result, inner⟩
  dsimp only
  cases ending src result inner with
  | none => exact (ite_self none).symm
  | some outcome => rfl

/-- The hook is spent when the reading ends. -/
theorem poll_armed :
    (t.poll src).2.2.armed
      = (t.armed && (ending src (src.poll t.inner).1 (src.poll t.inner).2).isNone) := by
  unfold poll
  rcases src.poll t.inner with ⟨result, inner⟩
  dsimp only
  cases ending src result inner with
  | none => exact (Bool.and_true t.armed).symm
  | some outcome => exact (Bool.and_false t.armed).symm

end Tee

/-! ## How exchanges are cut short -/

/-- A way in which an exchange is cut short. -/
inductive Interruption where
  /-- It fails before there is a response. -/
  | noResponse (error : String)
  /-- The response body fails. -/
  | bodyFailed
  /-- The response body is dropped before its end. -/
  | bodyDropped
  deriving DecidableEq, Repr

/-- What the operator is told. -/
def Interruption.event (uri : String) : Interruption → Diagnostic
  | .noResponse error => .exchangeFailed uri error
  | .bodyFailed => .bodyEndedEarly uri .failed
  | .bodyDropped => .bodyEndedEarly uri .aborted

theorem Interruption.event_eq_iff {uri uri' : String} (i : Interruption) :
    i.event uri = i.event uri' ↔ uri = uri' := by
  cases i <;> simp [event]

namespace Session

variable {σ τ : Type}

/-- The body of the response is there, and no poll has ended it. -/
def Reading (s : Session σ τ) (response : RecordedResponse τ) : Prop :=
  s.phase = .answered ∧ s.exchange.response = some response ∧ response.body.armed = true

/-- **An action cuts an exchange short.** -/
inductive Interrupts (responses : Source τ) (s : Session σ τ) :
    SessionAction τ → Interruption → Prop where
  | fail (error : String) (hwaiting : s.phase = .waiting) :
    Interrupts responses s (.fail error) (.noResponse error)
  | bodyFailed (now : Nat) (response : RecordedResponse τ) (error : String)
      (hreading : s.Reading response)
      (hpoll : (responses.poll response.body.inner).1 = .failure error) :
    Interrupts responses s (.readResponse now) .bodyFailed
  | bodyDropped (now : Nat) (response : RecordedResponse τ) (hreading : s.Reading response) :
    Interrupts responses s (.dropResponse now) .bodyDropped

/-- Some action of a run cuts the exchange short. -/
def CutShort (r : Recorder) (requests : Source σ) (responses : Source τ) (s : Session σ τ)
    (actions : List (SessionAction τ)) (i : Interruption) : Prop :=
  ∃ before a after, actions = before ++ a :: after
    ∧ (s.run r requests responses before).Interrupts responses a i

variable {r : Recorder} {requests : Source σ} {responses : Source τ}

theorem run_concat (s : Session σ τ) (actions : List (SessionAction τ)) (a : SessionAction τ) :
    s.run r requests responses (actions ++ [a])
      = (s.run r requests responses actions).step r requests responses a := by
  rw [run, List.foldl_append]
  rfl

/-- An exchange is cut short before the last action, or by it. -/
theorem cutShort_concat_iff {s : Session σ τ} {actions : List (SessionAction τ)}
    {a : SessionAction τ} {i : Interruption} :
    s.CutShort r requests responses (actions ++ [a]) i
      ↔ s.CutShort r requests responses actions i
        ∨ (s.run r requests responses actions).Interrupts responses a i :=
  exists_place_concat_iff

/-! ## One step -/

/-- **The operator is told** of a body that fails or is dropped, and of no other end. -/
theorem diagnostics_onHook (x : RecordedExchange σ τ) (response : RecordedResponse τ)
    (outcome : Option BodyOutcome) (now : Nat) :
    (x.onHook r response outcome now).diagnostics
      = match outcome with
        | some .failed => [.bodyEndedEarly x.note.uri .failed]
        | some .aborted => [.bodyEndedEarly x.note.uri .aborted]
        | _ => [] := by
  rcases outcome with _ | _ | _ | _ <;> rfl

/-- While no response body is read, its hook is told nothing. -/
theorem diagnostics_of_not_reading {s : Session σ τ} (h : ∀ response, ¬s.Reading response)
    (now : Nat) :
    (s.emission r responses (.readResponse now)).diagnostics = []
      ∧ (s.emission r responses (.dropResponse now)).diagnostics = [] := by
  rw [emission, emission]
  by_cases hphase : s.phase = .answered
  case neg =>
    rw [if_neg hphase, if_neg hphase]
    exact ⟨rfl, rfl⟩
  case pos =>
    rw [if_pos hphase, if_pos hphase, RecordedExchange.pollResponse, RecordedExchange.dropResponse]
    cases hresponse : s.exchange.response with
    | none => exact ⟨rfl, rfl⟩
    | some response =>
      have hspent : ¬response.body.armed = true := fun harmed =>
        h response ⟨hphase, hresponse, harmed⟩
      dsimp only
      rw [diagnostics_onHook, diagnostics_onHook, Tee.poll_outcome, Tee.drop, if_neg hspent,
        if_neg hspent]
      exact ⟨rfl, rfl⟩

theorem diagnostics_dropResponse {s : Session σ τ} {response : RecordedResponse τ}
    (h : s.Reading response) (now : Nat) :
    (s.emission r responses (.dropResponse now)).diagnostics
      = [Interruption.bodyDropped.event s.exchange.note.uri] := by
  obtain ⟨hphase, hresponse, harmed⟩ := h
  rw [emission, if_pos hphase, RecordedExchange.dropResponse, hresponse]
  dsimp only
  rw [diagnostics_onHook, Tee.drop, if_pos harmed]
  rfl

theorem diagnostics_readResponse {s : Session σ τ} {response : RecordedResponse τ}
    (h : s.Reading response) (now : Nat) :
    (s.emission r responses (.readResponse now)).diagnostics
      = match (responses.poll response.body.inner).1 with
        | .failure _ => [Interruption.bodyFailed.event s.exchange.note.uri]
        | _ => [] := by
  obtain ⟨hphase, hresponse, harmed⟩ := h
  rw [emission, if_pos hphase, RecordedExchange.pollResponse, hresponse]
  dsimp only
  rw [diagnostics_onHook, Tee.poll_outcome, if_pos harmed]
  cases (responses.poll response.body.inner).1 with
  | pending => rfl
  | failure error => rfl
  | ended => rfl
  | frame frame =>
    -- a last frame completes the body, any other one tells the hook nothing
    rw [Tee.ending]
    cases responses.isEnd (responses.poll response.body.inner).2 <;> rfl

theorem Reading.interrupts_readResponse_iff {s : Session σ τ} {response : RecordedResponse τ}
    (h : s.Reading response) {now : Nat} {i : Interruption} :
    s.Interrupts responses (.readResponse now) i
      ↔ i = .bodyFailed ∧ ∃ error, (responses.poll response.body.inner).1 = .failure error := by
  constructor
  · intro hcuts
    cases hcuts with
    | bodyFailed _ other error hother hpoll =>
      rw [← Option.some.inj (hother.2.1.symm.trans h.2.1)]
      exact ⟨rfl, error, hpoll⟩
  · rintro ⟨rfl, error, hpoll⟩
    exact .bodyFailed now response error h hpoll

/-- **A step shows what it cuts short,** and nothing else. -/
theorem diagnostics_emission (r : Recorder) (responses : Source τ) (s : Session σ τ)
    (a : SessionAction τ) :
    (∃ i, s.Interrupts responses a i
        ∧ (s.emission r responses a).diagnostics = [i.event s.exchange.note.uri])
      ∨ (∀ i, ¬s.Interrupts responses a i) ∧ (s.emission r responses a).diagnostics = [] := by
  cases a with
  | readRequest => exact .inr ⟨nofun, rfl⟩
  | respond => exact .inr ⟨nofun, rfl⟩
  | fail error =>
    rw [emission]
    by_cases hphase : s.phase = .waiting
    · rw [if_pos hphase]
      exact .inl ⟨_, .fail error hphase, rfl⟩
    · rw [if_neg hphase]
      refine .inr ⟨fun _ h => ?_, rfl⟩
      cases h with
      | fail _ hwaiting => exact hphase hwaiting
  | dropResponse now =>
    by_cases hreading : ∃ response, s.Reading response
    · obtain ⟨response, hreading⟩ := hreading
      exact .inl ⟨_, .bodyDropped now response hreading, diagnostics_dropResponse hreading now⟩
    · refine .inr ⟨fun _ h => ?_, (diagnostics_of_not_reading (not_exists.1 hreading) now).2⟩
      cases h with
      | bodyDropped _ response hopen => exact hreading ⟨response, hopen⟩
  | readResponse now =>
    by_cases hreading : ∃ response, s.Reading response
    · obtain ⟨response, hreading⟩ := hreading
      rw [diagnostics_readResponse hreading]
      simp only [hreading.interrupts_readResponse_iff]
      cases (responses.poll response.body.inner).1 with
      | failure error => exact .inl ⟨_, ⟨rfl, error, rfl⟩, rfl⟩
      | pending => exact .inr ⟨fun i h => h.2.elim nofun, rfl⟩
      | ended => exact .inr ⟨fun i h => h.2.elim nofun, rfl⟩
      | frame => exact .inr ⟨fun i h => h.2.elim nofun, rfl⟩
    · refine .inr ⟨fun _ h => ?_, (diagnostics_of_not_reading (not_exists.1 hreading) now).1⟩
      cases h with
      | bodyFailed _ response _ hopen => exact hreading ⟨response, hopen⟩

theorem note_advance (s : Session σ τ) (a : SessionAction τ) :
    (s.advance r requests responses a).exchange.note = s.exchange.note := by
  cases a with
  | readRequest => rfl
  | respond status headers body =>
    rw [advance]
    split <;> rfl
  | readResponse now =>
    rw [advance]
    split
    · rw [RecordedExchange.pollResponse]
      cases s.exchange.response <;> rfl
    · rfl
  | dropResponse now =>
    rw [advance]
    split <;> rfl
  | fail error =>
    rw [advance]
    split <;> rfl

/-- The note of the request is what it was when the exchange began. -/
theorem note_run (s : Session σ τ) (actions : List (SessionAction τ)) :
    (s.run r requests responses actions).exchange.note = s.exchange.note :=
  run_induction (motive := fun reached => reached.exchange.note = s.exchange.note) rfl
    (fun reached a h => (reached.note_advance a).trans h) actions

/-! ## No exchange is cut short twice -/

/-- Nothing is left that could cut the exchange short. -/
def Settled (s : Session σ τ) : Prop := s.phase ≠ .waiting ∧ ∀ response, ¬s.Reading response

/-- An exchange that is over is settled. -/
theorem settled_of_over {s : Session σ τ} (h : s.phase = .over) : s.Settled := by
  refine ⟨fun hwaiting => ?_, fun response hreading => ?_⟩
  · cases h.symm.trans hwaiting
  · cases h.symm.trans hreading.1

theorem Settled.not_interrupts {s : Session σ τ} (h : s.Settled) (a : SessionAction τ)
    (i : Interruption) :
    ¬s.Interrupts responses a i := by
  intro hcuts
  cases hcuts with
  | fail _ hwaiting => exact h.1 hwaiting
  | bodyFailed _ response _ hreading => exact h.2 response hreading
  | bodyDropped _ response hreading => exact h.2 response hreading

/-- A body that is read after a poll was read before it, and the poll has not ended it. -/
theorem reading_of_pollResponse {s : Session σ τ} {now : Nat} {next : RecordedResponse τ}
    (h : (s.advance r requests responses (.readResponse now)).Reading next) :
    ∃ response, s.Reading response
      ∧ Tee.ending responses (responses.poll response.body.inner).1
        (responses.poll response.body.inner).2
        = none := by
  obtain ⟨hphase, hnext, harmed⟩ := h
  rw [advance] at hphase hnext
  by_cases hanswered : s.phase = .answered
  case neg =>
    rw [if_neg hanswered] at hphase
    exact absurd hphase hanswered
  case pos =>
    rw [if_pos hanswered, RecordedExchange.pollResponse] at hnext
    cases hresponse : s.exchange.response with
    | none =>
      rw [hresponse] at hnext
      cases hresponse.symm.trans hnext
    | some response =>
      rw [hresponse] at hnext
      rw [← Option.some.inj hnext] at harmed
      change (response.body.poll responses).2.2.armed = true at harmed
      rw [Tee.poll_armed, Bool.and_eq_true] at harmed
      exact ⟨response, ⟨hanswered, hresponse, harmed.1⟩, Option.isNone_iff_eq_none.1 harmed.2⟩

/-- What is settled stays settled. -/
theorem Settled.advance {s : Session σ τ} (h : s.Settled) (a : SessionAction τ) :
    (s.advance r requests responses a).Settled := by
  cases a with
  | readRequest => exact h
  | respond status headers body =>
    rw [Session.advance, if_neg h.1]
    exact h
  | fail error =>
    rw [Session.advance, if_neg h.1]
    exact h
  | dropResponse now =>
    rw [Session.advance]
    split
    · exact settled_of_over rfl
    · exact h
  | readResponse now =>
    refine ⟨?_, fun next hnext => ?_⟩
    · rw [Session.advance]
      split
      · exact h.1
      · exact h.1
    · obtain ⟨response, hreading, -⟩ := reading_of_pollResponse hnext
      exact h.2 response hreading

theorem settled_of_interrupts {s : Session σ τ} {a : SessionAction τ} {i : Interruption}
    (h : s.Interrupts responses a i) : (s.advance r requests responses a).Settled := by
  cases h with
  | fail error hwaiting =>
    rw [advance, if_pos hwaiting]
    exact settled_of_over rfl
  | bodyDropped now response hreading =>
    rw [advance, if_pos hreading.1]
    exact settled_of_over rfl
  | bodyFailed now response error hreading hpoll =>
    refine ⟨?_, fun next hnext => ?_⟩
    · rw [advance, if_pos hreading.1]
      intro hwaiting
      cases hreading.1.symm.trans hwaiting
    · obtain ⟨other, hother, hending⟩ := reading_of_pollResponse hnext
      rw [Option.some.inj (hother.2.1.symm.trans hreading.2.1), hpoll] at hending
      cases hending

/-- One action interrupts an exchange in one way. -/
theorem Interrupts.unique {s : Session σ τ} {a : SessionAction τ} {i j : Interruption}
    (h : s.Interrupts responses a i) (h' : s.Interrupts responses a j) : i = j := by
  cases h <;> cases h' <;> rfl

/-- **The diagnostics of a run** say how the exchange was cut short, if it was. -/
theorem diagnostics_run (r : Recorder) (requests : Source σ) (responses : Source τ)
    (origin : Origin) (q : Request) (body : σ) (now : Nat) (actions : List (SessionAction τ)) :
    let s : Session σ τ := start r origin q body now
    ∃ found : Option Interruption, (∀ i, s.CutShort r requests responses actions i ↔ found = some i)
      ∧ (s.run r requests responses actions).diagnostics
        = (found.map (·.event q.uri.display)).toList
      ∧ (found ≠ none → (s.run r requests responses actions).Settled) := by
  intro s
  induction actions using List.reverseRecOn with
  | nil =>
    refine ⟨none, fun i => ⟨?_, nofun⟩, rfl, nofun⟩
    rintro ⟨before, a, after, hactions, -⟩
    cases before <;> cases hactions
  | append_singleton actions a ih =>
    obtain ⟨found, hfound, hdiagnostics, hsettled⟩ := ih
    have huri : (s.run r requests responses actions).exchange.note.uri = q.uri.display :=
      congrArg RequestNote.uri (s.note_run actions)
    simp only [run_concat, cutShort_concat_iff, hfound]
    generalize s.run r requests responses actions = reached at *
    rcases diagnostics_emission r responses reached a with ⟨i, hcuts, hshown⟩ | ⟨hnone, hshown⟩
    · -- before this step nothing was cut short, for then nothing would be left
      obtain rfl : found = none := by
        by_contra hbefore
        exact (hsettled hbefore).not_interrupts a i hcuts
      refine ⟨some i, fun j => ⟨?_, ?_⟩, ?_, fun _ => settled_of_interrupts hcuts⟩
      · rintro (hbefore | hj)
        · cases hbefore
        · rw [hcuts.unique hj]
      · intro hj
        rw [← Option.some.inj hj]
        exact .inr hcuts
      · change reached.diagnostics ++ (reached.emission r responses a).diagnostics = _
        rw [hdiagnostics, hshown, huri]
        rfl
    · refine ⟨found, fun j => ⟨?_, .inl⟩, ?_, fun hbefore => (hsettled hbefore).advance a⟩
      · rintro (hbefore | hj)
        · exact hbefore
        · exact absurd hj (hnone j)
      · change reached.diagnostics ++ (reached.emission r responses a).diagnostics = _
        rw [hdiagnostics, hshown, List.append_nil]

/-! ## The same exchange with another target -/

/-- The session with another target, and with other diagnostics. -/
def withTarget (s : Session σ τ) (uri : String) (diagnostics : List Diagnostic) : Session σ τ :=
  { s with exchange := { s.exchange with note := { s.exchange.note with uri } }, diagnostics }

theorem advance_withTarget (r : Recorder) (requests : Source σ) (responses : Source τ)
    (s : Session σ τ) (uri : String) (diagnostics : List Diagnostic) (a : SessionAction τ) :
    (s.withTarget uri diagnostics).advance r requests responses a
      = (s.advance r requests responses a).withTarget uri diagnostics := by
  obtain ⟨⟨note, request, response⟩, phase, requestPolls, responsePolls, records, before⟩ := s
  cases a with
  | readRequest => rfl
  | respond => cases phase <;> rfl
  | readResponse => cases phase <;> cases response <;> rfl
  | dropResponse => cases phase <;> rfl
  | fail => cases phase <;> rfl

theorem Interrupts.withTarget {s : Session σ τ} {a : SessionAction τ} {i : Interruption}
    (h : s.Interrupts responses a i) (uri : String) (diagnostics : List Diagnostic) :
    (s.withTarget uri diagnostics).Interrupts responses a i := by
  cases h with
  | fail error hwaiting => exact .fail error hwaiting
  | bodyFailed now response error hreading hpoll =>
    exact .bodyFailed now response error hreading hpoll
  | bodyDropped now response hreading => exact .bodyDropped now response hreading

/-- A session is cut short in the same way whatever its target is: the target can be put back. -/
theorem interrupts_withTarget_iff {s : Session σ τ} {uri : String} {diagnostics : List Diagnostic}
    {a : SessionAction τ} {i : Interruption} :
    (s.withTarget uri diagnostics).Interrupts responses a i ↔ s.Interrupts responses a i :=
  ⟨fun h => h.withTarget s.exchange.note.uri s.diagnostics, fun h => h.withTarget uri diagnostics⟩

/-- Records show masked targets only. -/
theorem write_withTarget {settings : Settings} (henabled : settings.masking.enabled = true)
    (e : Exchange) {uri : String} (h : Relation.EqvGen (TargetChange settings.masking) e.uri uri)
    (includeBody : Bool) :
    (Recorder.ofSettings settings).write { e with uri } includeBody
      = (Recorder.ofSettings settings).write e includeBody := by
  have hagree : AgreeExceptMasked settings.masking e { e with uri } := ⟨.refl _, h, .same, rfl⟩
  exact congrArg (TrafficRecord.mk e.origin) (record_maskExchange_eq henabled hagree _ _ _).symm

theorem records_onHook {settings : Settings} (henabled : settings.masking.enabled = true)
    (x : RecordedExchange σ τ) {uri : String}
    (h : Relation.EqvGen (TargetChange settings.masking) x.note.uri uri)
    (response : RecordedResponse τ) (outcome : Option BodyOutcome) (now : Nat) :
    (RecordedExchange.onHook (Recorder.ofSettings settings) { x with note := { x.note with uri } }
        response outcome now).records
      = (x.onHook (Recorder.ofSettings settings) response outcome now).records := by
  cases outcome with
  | none => rfl
  | some outcome =>
    unfold RecordedExchange.onHook RecordedExchange.finished
    dsimp only
    have hrequest := write_withTarget henabled (x.note.requestSide x.request.capture) h
    have hresponse := write_withTarget henabled
      (x.note.responseSide response.status response.headers response.body.capture now) h
    exact congrArg₂ (fun first second => [first, second]) (hrequest _) (hresponse _)

theorem records_withTarget {settings : Settings} (henabled : settings.masking.enabled = true)
    (responses : Source τ) (s : Session σ τ) {uri : String}
    (h : Relation.EqvGen (TargetChange settings.masking) s.exchange.note.uri uri)
    (diagnostics : List Diagnostic) (a : SessionAction τ) :
    ((s.withTarget uri diagnostics).emission (Recorder.ofSettings settings) responses a).records
      = (s.emission (Recorder.ofSettings settings) responses a).records := by
  have hphase : (s.withTarget uri diagnostics).phase = s.phase := rfl
  cases a with
  | readRequest => rfl
  | respond => rfl
  | fail error =>
    rw [emission, emission, hphase]
    split
    · have hrequest :=
        write_withTarget henabled (s.exchange.note.requestSide s.exchange.request.capture) h
      exact congrArg (fun record => [record]) (hrequest _)
    · rfl
  | dropResponse now =>
    have hresponse : (s.withTarget uri diagnostics).exchange.response = s.exchange.response := rfl
    rw [emission, emission, hphase, RecordedExchange.dropResponse,
      RecordedExchange.dropResponse, hresponse]
    split
    · cases s.exchange.response with
      | none => rfl
      | some response => exact records_onHook henabled s.exchange h response _ now
    · rfl
  | readResponse now =>
    have hresponse : (s.withTarget uri diagnostics).exchange.response = s.exchange.response := rfl
    rw [emission, emission, hphase, RecordedExchange.pollResponse,
      RecordedExchange.pollResponse, hresponse]
    split
    · cases s.exchange.response with
      | none => rfl
      | some response => exact records_onHook henabled s.exchange h _ _ now
    · rfl

theorem step_withTarget {settings : Settings} (henabled : settings.masking.enabled = true)
    (requests : Source σ) (responses : Source τ) (s : Session σ τ) {uri : String}
    (h : Relation.EqvGen (TargetChange settings.masking) s.exchange.note.uri uri)
    (diagnostics : List Diagnostic) (a : SessionAction τ) :
    ∃ shown, (s.withTarget uri diagnostics).step (Recorder.ofSettings settings) requests responses a
      = (s.step (Recorder.ofSettings settings) requests responses a).withTarget uri shown := by
  have hadvance :=
    advance_withTarget (Recorder.ofSettings settings) requests responses s uri diagnostics a
  have hrecords := records_withTarget henabled responses s h diagnostics a
  unfold step
  dsimp only
  rw [hadvance, hrecords]
  exact ⟨_, rfl⟩

/-- **A run with another target** differs from the run in its target and in its
diagnostics alone. -/
theorem run_withTarget {settings : Settings} (henabled : settings.masking.enabled = true)
    (requests : Source σ) (responses : Source τ) (s : Session σ τ) {uri : String}
    (h : Relation.EqvGen (TargetChange settings.masking) s.exchange.note.uri uri)
    (diagnostics : List Diagnostic) (actions : List (SessionAction τ)) :
    ∃ shown,
      (s.withTarget uri diagnostics).run (Recorder.ofSettings settings) requests responses actions
      = (s.run (Recorder.ofSettings settings) requests responses actions).withTarget uri shown := by
  induction actions using List.reverseRecOn with
  | nil => exact ⟨diagnostics, rfl⟩
  | append_singleton actions a ih =>
    obtain ⟨shown, heq⟩ := ih
    rw [run_concat, run_concat, heq]
    exact step_withTarget henabled requests responses _ (by rwa [note_run]) shown a

theorem cutShort_withTarget_iff {settings : Settings} (henabled : settings.masking.enabled = true)
    (s : Session σ τ) {uri : String}
    (h : Relation.EqvGen (TargetChange settings.masking) s.exchange.note.uri uri)
    (diagnostics : List Diagnostic) (actions : List (SessionAction τ)) (i : Interruption) :
    (s.withTarget uri diagnostics).CutShort (Recorder.ofSettings settings) requests
      responses actions i
      ↔ s.CutShort (Recorder.ofSettings settings) requests responses actions i := by
  refine exists_congr fun before => exists_congr fun a => exists_congr fun after =>
    and_congr_right fun _ => ?_
  obtain ⟨shown, heq⟩ := run_withTarget henabled requests responses s h diagnostics before
  rw [heq, interrupts_withTarget_iff]

/-- **Diagnostics and masked query values.** Two exchanges are made in the same way for requests
that agree except for masked query values. Then they have the same records, and their readers see
the same. If they are cut short, each of them has one diagnostic, which shows its own target as it
is; if not, they have none. So they have the same diagnostics exactly if the targets are the same or
the exchanges are not cut short. -/
theorem diagnostics_run_eq_iff (settings : Settings) (henabled : settings.masking.enabled = true)
    (requests : Source σ) (responses : Source τ) (origin : Origin) (q q' : Request)
    (h : QueriesAgree settings.masking q q') (body : σ) (now : Nat)
    (actions : List (SessionAction τ)) :
    let r := Recorder.ofSettings settings
    let begun : Session σ τ := start r origin q body now
    let s := begun.run r requests responses actions
    let s' := (start r origin q' body now : Session σ τ).run r requests responses actions
    s'.records = s.records ∧ s'.requestPolls = s.requestPolls ∧ s'.responsePolls = s.responsePolls
      ∧ (∀ i, begun.CutShort r requests responses actions i →
          s.diagnostics = [i.event q.uri.display] ∧ s'.diagnostics = [i.event q'.uri.display])
      ∧ ((∀ i, ¬begun.CutShort r requests responses actions i) →
          s.diagnostics = [] ∧ s'.diagnostics = [])
      ∧ (s'.diagnostics = s.diagnostics
          ↔ q'.uri.display = q.uri.display
            ∨ ∀ i, ¬begun.CutShort r requests responses actions i) := by
  intro r begun s s'
  have hbegun : (start r origin q' body now : Session σ τ)
      = begun.withTarget q'.uri.display [] := by
    rw [← h.rest]
    rfl
  obtain ⟨shown, hrun⟩ := run_withTarget henabled requests responses begun h.target [] actions
  have hs' : s' = s.withTarget q'.uri.display shown :=
    (congrArg (run r requests responses · actions) hbegun).trans hrun
  have hcut : ∀ i,
      (start r origin q' body now : Session σ τ).CutShort r requests responses actions i
      ↔ begun.CutShort r requests responses actions i := by
    rw [hbegun]
    exact cutShort_withTarget_iff henabled begun h.target [] actions
  obtain ⟨found, hfound, hdiagnostics, -⟩ :=
    diagnostics_run r requests responses origin q body now actions
  obtain ⟨found', hfound', hdiagnostics', -⟩ :=
    diagnostics_run r requests responses origin q' body now actions
  obtain rfl : found = found' :=
    Option.ext fun i => (hfound i).symm.trans ((hcut i).symm.trans (hfound' i))
  have hseen : s'.records = s.records ∧ s'.requestPolls = s.requestPolls
      ∧ s'.responsePolls = s.responsePolls := by
    rw [hs']
    exact ⟨rfl, rfl, rfl⟩
  refine ⟨hseen.1, hseen.2.1, hseen.2.2, ?_⟩
  cases found with
  | none =>
    have hnot : ∀ i, ¬begun.CutShort r requests responses actions i := fun i hi =>
      nomatch (hfound i).1 hi
    exact ⟨fun i hi => absurd hi (hnot i), fun _ => ⟨hdiagnostics, hdiagnostics'⟩,
      fun _ => .inr hnot, fun _ => hdiagnostics'.trans hdiagnostics.symm⟩
  | some j =>
    refine ⟨fun i hi => ?_, fun hnot => absurd ((hfound j).2 rfl) (hnot j), ?_⟩
    · rw [← Option.some.inj ((hfound i).1 hi)]
      exact ⟨hdiagnostics, hdiagnostics'⟩
    · rw [hdiagnostics, hdiagnostics']
      constructor
      · intro heq
        exact .inl (j.event_eq_iff.1 (List.cons.inj heq).1)
      · rintro (htarget | hnot)
        · rw [htarget]
        · exact absurd ((hfound j).2 rfl) (hnot j)

/-- Everything is recorded, and what is private about a log-in is masked. -/
def logInSettings : Settings :=
  { recording := { RecordingSettings.standard with level := .full }, masking := logInMasking }

def logInRequest (token : String) : Request :=
  { method := ⟨"POST"⟩
    uri := { scheme := none, authority := "", path := "/login"
             query := some ("user=u&access_token=" ++ token) }
    headers := Headers.empty
    body := Body.empty
    assignedId := none }

theorem queriesAgree_logIn :
    QueriesAgree logInMasking (logInRequest "abc") (logInRequest "xyz") := by
  have hchange := targetChange_logIn "=abc".toList "=xyz".toList
    ⟨.inr ⟨"abc".toList, by decide⟩, by decide⟩ ⟨.inr ⟨"xyz".toList, by decide⟩, by decide⟩
  have htarget : logInTarget "=abc".toList = (logInRequest "abc").uri.display := by decide
  have hother : logInTarget "=xyz".toList = (logInRequest "xyz").uri.display := by decide
  rw [htarget, hother] at hchange
  exact ⟨.rel _ _ hchange, rfl⟩

/-- The service answers, and the client goes away in the middle of the response body. -/
def halfSent : List (SessionAction Body) :=
  [.respond Status.ok Headers.empty (Body.stream [.frame (.data [0x61]), .frame (.data [0x62])]),
    .readResponse 1, .dropResponse 2]

/-- The records are the same, and each diagnostic shows the token of its request. -/
theorem diagnostics_run_eq_iff_halfSent :
    let r := Recorder.ofSettings logInSettings
    let run := fun q =>
      (start r .inbound q Body.empty 0 : Session Body Body).run r Body.source Body.source halfSent
    logInSettings.masking.enabled = true
      ∧ QueriesAgree logInSettings.masking (logInRequest "abc") (logInRequest "xyz")
      ∧ (run (logInRequest "xyz")).records = (run (logInRequest "abc")).records
      ∧ (run (logInRequest "abc")).diagnostics
        = [.bodyEndedEarly "/login?user=u&access_token=abc" .aborted]
      ∧ (run (logInRequest "xyz")).diagnostics
        = [.bodyEndedEarly "/login?user=u&access_token=xyz" .aborted] := by
  intro r run
  obtain ⟨hrecords, -, -, hcut, -⟩ :=
    diagnostics_run_eq_iff logInSettings rfl Body.source Body.source .inbound (logInRequest "abc")
      (logInRequest "xyz") queriesAgree_logIn Body.empty 0 halfSent
  have hdropped : (start r .inbound (logInRequest "abc") Body.empty 0 : Session Body Body).CutShort
      r Body.source Body.source halfSent .bodyDropped := by
    refine ⟨halfSent.take 2, .dropResponse 2, [], rfl, .bodyDropped 2 _ ⟨rfl, rfl, ?_⟩⟩
    rfl
  have htarget : (logInRequest "abc").uri.display = "/login?user=u&access_token=abc" := by decide
  have hother : (logInRequest "xyz").uri.display = "/login?user=u&access_token=xyz" := by decide
  have hshown := hcut .bodyDropped hdropped
  rw [htarget, hother] at hshown
  exact ⟨rfl, queriesAgree_logIn, hrecords, hshown⟩

/-- Two log-ins that differ in their token fail before there is a response, and one can tell the
tokens from what the operator is told. -/
theorem diagnostics_ne_logIn :
    let r := Recorder.ofSettings logInSettings
    let run := fun q =>
      (start r .inbound q Body.empty 0 : Session Body Body).run r Body.source Body.source
        [.fail "backend gone"]
    logInSettings.masking.enabled = true ∧ logInSettings.masking.parameters ≠ []
      ∧ QueriesAgree logInSettings.masking (logInRequest "abc") (logInRequest "xyz")
      ∧ (run (logInRequest "abc")).diagnostics
        = [.exchangeFailed "/login?user=u&access_token=abc" "backend gone"]
      ∧ (run (logInRequest "xyz")).diagnostics ≠ (run (logInRequest "abc")).diagnostics := by
  intro r run
  have htarget : (logInRequest "abc").uri.display = "/login?user=u&access_token=abc" := by decide
  have hother : (logInRequest "xyz").uri.display = "/login?user=u&access_token=xyz" := by decide
  have hshown : ∀ q, (run q).diagnostics = [.exchangeFailed q.uri.display "backend gone"] :=
    fun q => rfl
  refine ⟨rfl, by decide, queriesAgree_logIn, ?_, ?_⟩
  · rw [hshown, htarget]
  · rw [hshown, hshown, htarget, hother]
    decide

end Session
end Gatehouse.Traffic
