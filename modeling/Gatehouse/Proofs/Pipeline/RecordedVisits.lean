/-
Which calls leave a record.

The recording layer begins an exchange when the handler is called, and writes when the exchange
concludes: the handler fails, or it answers and the body of its response ends, fails or is dropped.
What concludes an exchange hangs on the response and on the failure; nothing hangs on the call
itself. So a visit that is dropped while its handler is running leaves nothing, and it is the only
one: `recorded_iff_returned` says that a call that is over has left the record of its request
exactly if its handler has returned.

A visit at its handler, or with the handler's response, is a session of its exchange, and what a
session writes is known (`shows_of_concludes`). The work is in following a visit from place to
place (`Followed`).
-/
import Gatehouse.Proofs.Pipeline.Keeping
import Gatehouse.Proofs.Traffic.WrittenRecords

set_option autoImplicit false

namespace Gatehouse.Pipeline

open Gatehouse.Http Gatehouse.Idempotency Gatehouse.Routing Gatehouse.Traffic

/-! ## Accounts -/

/-- The sides that are recorded of a call, by what its handler has returned. -/
def sidesOf : Except String (Status × Headers) → List Side
  | .error _ => [.request]
  | .ok _ => [.request, .response]

/-- Nothing is said of the handler of a visit. -/
def Aloof (i : Nat) (events : List Event) : Prop :=
  .invoked i ∉ events ∧ ∀ result, .returned i result ∉ events

/-- The handler of a visit has been called and has not returned. -/
def AtWork (i : Nat) (events : List Event) : Prop :=
  .invoked i ∈ events ∧ ∀ result, .returned i result ∉ events

/-- **Account of a visit** whose exchange is over, if there was one: what has been written of it. -/
inductive Account (r : Recorder) (request : Request) (i : Nat) (events : List Event)
    (written : List TrafficRecord) :
    Prop where
  | never (hnever : .invoked i ∉ events) (hnothing : written = [])
  /-- It was dropped while the handler was running. -/
  | lost (hatWork : AtWork i events) (hnothing : written = [])
  | recorded (result : Except String (Status × Headers)) (hcalled : .invoked i ∈ events)
      (hreturned : .returned i result ∈ events)
      (hshows : List.Forall₂ (Shows r .inbound request) (sidesOf result) written)

/-- **A response is sent** in a session: both records are written if the session is settled, and
none otherwise. -/
structure Sending (r : Recorder) (request : Request) (i : Nat) (events : List Event)
    (written : List TrafficRecord) (s : Session Body Body) : Prop where
  phase : s.phase = .answered
  note : ∃ startedAt, s.exchange.note = RequestNote.ofRequest .inbound request startedAt
  called : .invoked i ∈ events
  returned : ∃ head, .returned i (.ok head) ∈ events
  written : (¬s.Settled ∧ written = [])
    ∨ s.Settled ∧ List.Forall₂ (Shows r .inbound request) [.request, .response] written

/-- **A visit is followed** by its events and its records to the place where it stands. -/
inductive Followed (r : Recorder) (request : Request) (i : Nat) (events : List Event)
    (written : List TrafficRecord) :
    Place → Prop where
  | waiting (key : String) (handle : InFlight) (haloof : Aloof i events) (hnothing : written = []) :
    Followed r request i events written (.waiting key handle)
  | executing (s : Session Body Body) (hphase : s.phase = .waiting)
      (hnote : ∃ startedAt, s.exchange.note = RequestNote.ofRequest .inbound request startedAt)
      (hatWork : AtWork i events) (hnothing : written = []) :
    Followed r request i events written (.executing (.recorded s.exchange))
  | storing (key : String) (status : Status) (headers : Headers) (reading : Reading)
      (s : Session Body Body) (hsending : Sending r request i events written s) :
    Followed r request i events written (.storing key status headers (.recorded s.exchange) reading)
  | sending (status : Status) (headers : Headers) (s : Session Body Body)
      (hsending : Sending r request i events written s) :
    Followed r request i events written (.answered status headers (.recorded s.exchange))
  | answered (status : Status) (headers : Headers) (requestBody responseBody : Body)
      (haccount : Account r request i events written) :
    Followed r request i events written
      (.answered status headers (.direct requestBody responseBody))
  | failed (error : String) (haccount : Account r request i events written) :
    Followed r request i events written (.failed error)
  | gone (haccount : Account r request i events written) : Followed r request i events written .gone

section

variable {r : Recorder} {request : Request} {i : Nat} {events more : List Event}
  {written : List TrafficRecord} {place : Place} {s : Session Body Body}

theorem Aloof.append (h : Aloof i events) (hmore : Aloof i more) : Aloof i (events ++ more) := by
  refine ⟨?_, fun result => ?_⟩
  · simp [h.1, hmore.1]
  · simp [h.2 result, hmore.2 result]

theorem AtWork.append (h : AtWork i events) (hmore : Aloof i more) : AtWork i (events ++ more) := by
  refine ⟨List.mem_append_left _ h.1, fun result => ?_⟩
  simp [h.2 result, hmore.2 result]

theorem Account.append (h : Account r request i events written) (hmore : Aloof i more) :
    Account r request i (events ++ more) written := by
  cases h with
  | never hnever hnothing => exact .never (by simp [hnever, hmore.1]) hnothing
  | lost hatWork hnothing => exact .lost (hatWork.append hmore) hnothing
  | recorded result hcalled hreturned hshows =>
    exact .recorded result (List.mem_append_left _ hcalled)
      (List.mem_append_left _ hreturned) hshows

theorem Sending.append (h : Sending r request i events written s) (more : List Event) :
    Sending r request i (events ++ more) written s := by
  obtain ⟨head, hreturned⟩ := h.returned
  exact ⟨h.phase, h.note, List.mem_append_left _ h.called,
    ⟨head, List.mem_append_left _ hreturned⟩, h.written⟩

theorem Followed.append (h : Followed r request i events written place) (hmore : Aloof i more) :
    Followed r request i (events ++ more) written place := by
  cases h with
  | waiting key handle haloof hnothing => exact .waiting key handle (haloof.append hmore) hnothing
  | executing s hphase hnote hatWork hnothing =>
    exact .executing s hphase hnote (hatWork.append hmore) hnothing
  | storing key status headers reading s hsending =>
    exact .storing key status headers reading s (hsending.append more)
  | sending status headers s hsending => exact .sending status headers s (hsending.append more)
  | answered status headers requestBody responseBody haccount =>
    exact .answered status headers requestBody responseBody (haccount.append hmore)
  | failed error haccount => exact .failed error (haccount.append hmore)
  | gone haccount => exact .gone (haccount.append hmore)

/-! ## Sending a response -/

theorem Sending.reading (h : Sending r request i events written s) (hopen : ¬s.Settled) :
    ∃ response, s.Reading response := by
  rcases Session.not_settled_iff.1 hopen with hwaiting | hreading
  · cases hwaiting.symm.trans h.phase
  · exact hreading

/-- **Whatever ends the response,** both records are written then, if they have not been
written before. -/
theorem Sending.shows_of_ends (h : Sending r request i events written s) {a : SessionAction Body}
    (hends : ¬s.Settled → s.Ends Body.source a) :
    List.Forall₂ (Shows r .inbound request) [.request, .response]
      (written ++ (s.emission r Body.source a).records) := by
  obtain ⟨startedAt, hnote⟩ := h.note
  rcases h.written with ⟨hopen, hnothing⟩ | ⟨hsettled, hshows⟩
  · rw [hnothing]
    exact Session.shows_of_concludes hopen hnote (.ends a (hends hopen))
  · rw [hsettled.records_emission a, List.append_nil]
    exact hshows

/-- A visit whose response has ended has its account. -/
theorem Sending.account (h : Sending r request i events written s) {a : SessionAction Body}
    (hends : ¬s.Settled → s.Ends Body.source a) (more : List Event) :
    Account r request i (events ++ more) (written ++ (s.emission r Body.source a).records) := by
  obtain ⟨head, hreturned⟩ := h.returned
  exact .recorded (.ok head) (List.mem_append_left _ h.called) (List.mem_append_left _ hreturned)
    (h.shows_of_ends hends)

/-- **A poll of the response** goes on sending it, and writes both records if it ends it. -/
theorem Sending.readResponse (h : Sending r request i events written s) (now : Nat) :
    Sending r request i events (written ++ (s.emission r Body.source (.readResponse now)).records)
      (s.advance r Body.source Body.source (.readResponse now)) := by
  obtain ⟨startedAt, hnote⟩ := h.note
  have hphase : (s.advance r Body.source Body.source (.readResponse now)).phase = .answered := by
    rw [Session.advance, if_pos h.phase]
    exact h.phase
  refine ⟨hphase, ⟨startedAt, (s.note_advance _).trans hnote⟩, h.called, h.returned, ?_⟩
  -- a poll that ends the response concludes the exchange, and no other poll writes anything
  by_cases hends : s.Ends Body.source (.readResponse now)
  · exact .inr ⟨Session.settled_of_concludes (.ends _ hends), h.shows_of_ends fun _ => hends⟩
  · have hgoesOn : ∀ sides, ¬s.Concludes Body.source (.readResponse now) sides := by
      intro sides hconcludes
      cases hconcludes with
      | ends _ hother => exact hends hother
    rcases h.written with ⟨hopen, hnothing⟩ | ⟨hsettled, hshows⟩
    · obtain ⟨hnone, hnext⟩ := Session.step_of_not_concludes r Body.source hopen hgoesOn
      rw [hnothing, hnone]
      exact .inl ⟨hnext, rfl⟩
    · rw [hsettled.records_emission, List.append_nil]
      exact .inr ⟨hsettled.advance _, hshows⟩

/-! ### Through a passage -/

theorem Sending.pollResponse (h : Sending r request i events written s) (now : Nat) :
    ((Passage.recorded s.exchange).pollResponse r now).2.1
      = s.emission r Body.source (.readResponse now)
      ∧ ((Passage.recorded s.exchange).pollResponse r now).2.2
        = .recorded (s.advance r Body.source Body.source (.readResponse now)).exchange := by
  rw [Session.emission, Session.advance, if_pos h.phase, if_pos h.phase]
  exact ⟨rfl, rfl⟩

theorem Sending.dropResponse (h : Sending r request i events written s) (now : Nat) :
    (Passage.recorded s.exchange).dropResponse r now
      = s.emission r Body.source (.dropResponse now) := by
  rw [Session.emission, if_pos h.phase]
  rfl

/-- **The handler answers,** and its response is sent. -/
theorem sending_respond (hphase : s.phase = .waiting)
    (hnote : ∃ startedAt, s.exchange.note = RequestNote.ofRequest .inbound request startedAt)
    (hatWork : AtWork i events) (response : Response) :
    ∃ t : Session Body Body, (Passage.recorded s.exchange).respond r response = .recorded t.exchange
      ∧ Sending r request i
          (events ++ [.returned i (.ok (response.status, response.headers))]) [] t := by
  obtain ⟨startedAt, hnote⟩ := hnote
  have hreading :=
    Session.reading_respond r Body.source Body.source hphase response.status response.headers
      response.body
  refine ⟨s.advance r Body.source Body.source
    (.respond response.status response.headers response.body), ?_, ?_⟩
  · rw [Session.advance, if_pos hphase]
    rfl
  · refine ⟨?_, ⟨startedAt, (s.note_advance _).trans hnote⟩, by simp [hatWork.1],
      ⟨(response.status, response.headers), by simp⟩, .inl ⟨?_, rfl⟩⟩
    · rw [Session.advance, if_pos hphase]
    · exact Session.not_settled_iff.2 (.inr hreading)

/-- A poll that finds the end or a failure ends the response, and with it the account of the
visit is complete. -/
theorem Sending.account_poll (h : Sending r request i events written s) {now : Nat}
    (hover : ((Passage.recorded s.exchange).pollResponse r now).1 = .ended
      ∨ ∃ error, ((Passage.recorded s.exchange).pollResponse r now).1 = .failure error)
      (more : List Event) :
    Account r request i (events ++ more)
      (written ++ ((Passage.recorded s.exchange).pollResponse r now).2.1.records) := by
  obtain ⟨hemission, -⟩ := h.pollResponse now
  rw [hemission]
  refine h.account (fun hopen => ?_) more
  obtain ⟨response, hreading⟩ := h.reading hopen
  -- the tee shows its reader what the body behind it shows
  have hpoll : ((Passage.recorded s.exchange).pollResponse r now).1
      = (Body.source.poll response.body.inner).1 := by
    rw [Passage.pollResponse, RecordedExchange.pollResponse, hreading.2.1]
    exact Tee.poll_result Body.source response.body
  rw [hpoll] at hover
  exact .poll now response hreading.1 hreading.2.1 (hover.imp_right .inl)

theorem Sending.account_drop (h : Sending r request i events written s) (now : Nat)
    (more : List Event) :
    Account r request i (events ++ more)
      (written ++ ((Passage.recorded s.exchange).dropResponse r now).records) := by
  rw [h.dropResponse]
  exact h.account (fun _ => .drop now h.phase) more

/-! ## Following a visit -/

variable {g : Guard} {now : Nat} {v : Visit} {told : List Event} {added : List TrafficRecord}

theorem aloof_settling : Aloof i (v.settling g place) := by simp [Aloof]

/-- **At the idempotency gate** a visit that is called begins its exchange. -/
theorem Visit.Passes.followed (h : Passes g now v events place)
    (hrecords : g.records v.request = true) (haloof : Aloof v.id told) :
    Followed g.recorder v.request v.id (told ++ events) [] place := by
  cases h with
  | refused headers body =>
    exact .answered _ headers _ body (.never (by simp [haloof.1]) rfl)
  | called key =>
    -- what is selected goes by a session that has just begun
    have hpassage : v.passageOf g now
        = .recorded
          (Session.start g.recorder .inbound v.request v.request.body now : Session Body
            Body).exchange := by
      rw [passageOf, if_pos hrecords]
      rfl
    rw [hpassage]
    refine .executing _ rfl ⟨now, rfl⟩ ⟨by simp, fun result => ?_⟩ rfl
    simp [haloof.2 result]
  | replays record waited =>
    exact .answered _ _ _ _ (.never (by simp [haloof.1]) rfl)
  | waits key handle =>
    rw [List.append_nil]
    exact .waiting key handle haloof rfl
  | rejected key headers body =>
    exact .answered _ headers _ body (.never (by simp [haloof.1]) rfl)

/-- **A visit that is dropped** leaves the account of what has been written of it by then: a
response that is still there is dropped with it, and nothing else hangs on a place. -/
theorem Followed.account_leave (now : Nat)
    (hv : Followed g.recorder v.request v.id told written v.place) :
    Account g.recorder v.request v.id (told ++ v.unclaiming)
      (written ++ (v.droppedEmission g now).records) := by
  have haloof : Aloof v.id v.unclaiming := by simp [Aloof]
  have hnothingMore : Account g.recorder v.request v.id told written →
      Account g.recorder v.request v.id (told ++ v.unclaiming) (written ++ []) := by
    intro haccount
    rw [List.append_nil]
    exact haccount.append haloof
  rw [Visit.droppedEmission]
  generalize v.place = stood at hv ⊢
  cases hv with
  | waiting key handle hwaiting hnothing =>
    exact .never (hwaiting.append haloof).1 (by rw [hnothing]; rfl)
  | executing s hphase hnote hatWork hnothing =>
    exact .lost (hatWork.append haloof) (by rw [hnothing]; rfl)
  | storing key status headers reading s hsending => exact hsending.account_drop now v.unclaiming
  | sending status headers s hsending => exact hsending.account_drop now v.unclaiming
  | answered status headers requestBody responseBody haccount => exact hnothingMore haccount
  | failed error haccount => exact hnothingMore haccount
  | gone haccount => exact hnothingMore haccount

/-- **The handler of a visit answers:** nothing has been written of it yet, and its response is
sent from then on. -/
theorem Followed.respond {passage : Passage}
    (hv : Followed r request i events written (.executing passage)) (response : Response) :
    written = [] ∧ ∃ t : Session Body Body, passage.respond r response = .recorded t.exchange
      ∧ Sending r request i
          (events ++ [.returned i (.ok (response.status, response.headers))]) [] t := by
  cases hv with
  | executing s hphase hnote hatWork hnothing =>
    exact ⟨hnothing, sending_respond hphase hnote hatWork response⟩

/-- **A poll by the client** of what it has been answered. -/
theorem Followed.deliver (now : Nat) {status : Status} {headers : Headers} {passage : Passage}
    (hv : Followed r request i events written (.answered status headers passage)) :
    Followed r request i events (written ++ (passage.pollResponse r now).2.1.records)
      (.answered status headers (passage.pollResponse r now).2.2) := by
  cases hv with
  | sending _ _ s hsending =>
    obtain ⟨hemission, hnext⟩ := hsending.pollResponse now
    rw [hemission, hnext]
    exact .sending status headers _ (hsending.readResponse now)
  | answered _ _ requestBody responseBody haccount =>
    -- the gates' own answers are not behind a tee
    rw [show (Passage.pollResponse _ _ _).2.1.records = [] from rfl, List.append_nil]
    exact .answered status headers _ _ haccount

/-- **A deed is followed.** -/
theorem Visit.Deed.followed (h : Deed g now v events added place)
    (hrecords : g.records v.request = true)
    (hv : Followed g.recorder v.request v.id told written v.place) :
    Followed g.recorder v.request v.id (told ++ events) (written ++ added) place := by
  cases h with
  | stays =>
    rw [List.append_nil, List.append_nil]
    exact hv
  | passes key handle events place hplace hpasses =>
    rw [hplace] at hv
    cases hv with
    | waiting _ _ haloof hnothing =>
      rw [hnothing]
      exact hpasses.followed hrecords haloof
  | reads passage hplace =>
    rw [hplace] at hv
    cases hv with
    | executing s hphase hnote hatWork hnothing =>
      rw [List.append_nil, List.append_nil]
      exact .executing (s.advance g.recorder Body.source Body.source .readRequest) hphase hnote
        hatWork hnothing
  | fails passage error hplace =>
    rw [hplace] at hv
    cases hv with
    | executing s hphase hnote hatWork hnothing =>
      obtain ⟨startedAt, hnote⟩ := hnote
      rw [hnothing]
      exact .failed error (.recorded (.error error) (by simp [hatWork.1]) (by simp)
        (.cons (Session.shows_requestSide hnote) .nil))
  | answers passage response hplace =>
    rw [hplace] at hv
    obtain ⟨hnothing, t, hpassage, hsending⟩ := hv.respond response
    rw [hnothing, List.append_nil, hpassage]
    exact .sending response.status response.headers t hsending
  | captures key passage response hplace =>
    rw [hplace] at hv
    obtain ⟨hnothing, t, hpassage, hsending⟩ := hv.respond response
    rw [hnothing, List.append_nil, hpassage]
    exact .storing key response.status response.headers Reading.start t hsending
  | absorbs key status headers passage reading next hplace =>
    rw [hplace] at hv
    cases hv with
    | storing _ _ _ _ s hsending =>
      obtain ⟨hemission, hnext⟩ := hsending.pollResponse now
      rw [hemission, hnext, List.append_nil]
      exact .storing key status headers next _ (hsending.readResponse now)
  | captureFails key status headers passage reading error answerHeaders body hplace hfailed =>
    rw [hplace] at hv
    cases hv with
    | storing _ _ _ _ s hsending =>
      exact .answered _ _ _ _ (hsending.account_poll (.inr ⟨error, hfailed⟩) v.unclaiming)
  | stores key status headers passage reading record hplace hended hstatus =>
    rw [hplace] at hv
    cases hv with
    | storing _ _ _ _ s hsending =>
      exact .answered _ _ _ _ (hsending.account_poll (.inl hended) [.stored v.id record])
  | delivers status headers passage hplace =>
    rw [hplace] at hv
    rw [List.append_nil]
    exact hv.deliver now
  | leaves => exact .gone (hv.account_leave now)

theorem kept_followed (g : Guard) :
    Visit.Kept g fun v events written =>
      g.records v.request = true → Followed g.recorder v.request v.id events written v.place where
  denied := by
    intro u name headers body hplace hrecords
    rw [hplace]
    exact .answered _ headers _ body (.never (by simp) rfl)
  enters := by
    intro now v u events hid hrequest hpasses hrecords
    rw [hid, hrequest, ← List.append_assoc]
    rw [hrequest] at hrecords
    exact (hpasses.followed hrecords (by simp [Aloof])).append aloof_settling
  does := by
    intro now v u told events written added hback hv hid hrequest hdeed hrecords
    rw [hid, hrequest, ← List.append_assoc]
    rw [hrequest] at hrecords
    exact (hdeed.followed hrecords (hv hrecords)).append aloof_settling

/-- Of a visit that is over there is an account. -/
theorem Followed.account (h : Followed r request i events written place)
    (hover : place = .gone ∨ ∃ error, place = .failed error) :
    Account r request i events written := by
  rcases hover with rfl | ⟨error, rfl⟩
  · cases h with
    | gone haccount => exact haccount
  · cases h with
    | failed _ haccount => exact haccount

end

/-! ## Runs -/

namespace Gates

/-- **The request of a visit is recorded:** a step about the visit has written a
record that shows it. -/
def Recorded (g : Guard) (s : Gates) (actions : List Action) (i : Nat) (request : Request) : Prop :=
  ∃ record ∈ writtenBy g i s actions, Shows g.recorder .inbound request .request record

theorem account_run (g : Guard) (config : Breaker.BreakerConfig) (ttlMs : Option Nat)
    (actions : List Action) {i : Nat} {v : Visit}
    (hv : ((start (World.start config ttlMs)).run g actions).visits[i]? = some v)
    (hrecords : g.records v.request = true)
    (hover : v.place = .gone ∨ ∃ error, v.place = .failed error) :
    Account g.recorder v.request i
      (((start (World.start config ttlMs)).run g actions).world.eventsOf i)
      (writtenBy g i (start (World.start config ttlMs)) actions) := by
  have hfollowed := kept_run (kept_followed g) config ttlMs actions i v hv hrecords
  rw [(owned_run g config ttlMs actions).id i v hv] at hfollowed
  exact hfollowed.account hover

/-- **A call leaves the record of its request exactly if its handler returns.** On every run, of a
visit whose request is selected, whose handler was called, and of which nothing is left: a step
about it has written a record that shows the request exactly if the handler has returned, that is,
if the visit was not dropped while the handler was running. Either the handler has returned, and
then there is one record for each side that there was, or there is none. -/
theorem recorded_iff_returned (g : Guard) (config : Breaker.BreakerConfig) (ttlMs : Option Nat)
    (actions : List Action) (i : Nat) (v : Visit)
    (hv : ((start (World.start config ttlMs)).run g actions).visits[i]? = some v)
    (hrecords : g.records v.request = true)
    (hcalled : .invoked i ∈ ((start (World.start config ttlMs)).run g actions).world.history)
    (hover : v.place = .gone ∨ ∃ error, v.place = .failed error) :
    let s₀ := start (World.start config ttlMs)
    let s := s₀.run g actions
    (Recorded g s₀ actions i v.request ↔ ∃ result, .returned i result ∈ s.world.history)
      ∧ ((∃ result, .returned i result ∈ s.world.history
            ∧ List.Forall₂ (Shows g.recorder .inbound v.request) (sidesOf result)
              (writtenBy g i s₀ actions))
          ∨ writtenBy g i s₀ actions = []) := by
  intro s₀ s
  have haccount := account_run g config ttlMs actions hv hrecords hover
  cases haccount with
  | never hnever => exact absurd ((World.mem_eventsOf_iff rfl).2 hcalled) hnever
  | lost hatWork hnothing =>
    refine ⟨iff_of_false ?_ ?_, .inr hnothing⟩
    · rintro ⟨record, hmem, -⟩
      rw [hnothing] at hmem
      exact List.not_mem_nil hmem
    · rintro ⟨result, hreturned⟩
      exact hatWork.2 result ((World.mem_eventsOf_iff rfl).2 hreturned)
  | recorded result _ hreturned hshows =>
    have hnoted := (World.mem_eventsOf_iff rfl).1 hreturned
    refine ⟨iff_of_true ?_ ⟨result, hnoted⟩, .inl ⟨result, hnoted, hshows⟩⟩
    -- the first record is that of the request, whatever the handler has returned
    obtain ⟨rest, hsides⟩ : ∃ rest, sidesOf result = .request :: rest := by
      cases result with
      | error error => exact ⟨[], rfl⟩
      | ok head => exact ⟨[.response], rfl⟩
    rw [hsides] at hshows
    obtain ⟨record, others, hfirst, -, hwritten⟩ := List.forall₂_cons_left_iff.1 hshows
    refine ⟨record, ?_, hfirst⟩
    rw [hwritten]
    exact List.mem_cons_self

/-- Gates with the recording layer alone. -/
def recordingGuard : Guard :=
  { idempotentGuard with layers := { breaker := false, idempotency := false, recording := true } }

theorem records_order : recordingGuard.records order = true := by cbv

/-- Two orders come. The first is answered, and its client goes away without having read the
response; the second is dropped while the handler is running. -/
def answeredAndDropped : List Action :=
  [.arrive order none 0, .arrive order none 1,
    .reply 0 (.ok { status := ⟨201⟩, headers := Headers.empty, body := Body.ofBytes [111, 107] }) 2,
    .leave 0 3, .leave 1 4]

theorem history_answeredAndDropped :
    ((start (World.start Breaker.BreakerConfig.standard none)).run recordingGuard
      answeredAndDropped).world.history
      = [.invoked 0, .invoked 1, .returned 0 (.ok (⟨201⟩, Headers.empty))] :=
  rfl

theorem gone_answeredAndDropped {i : Nat} (hi : i < 2) :
    ∃ v, ((start (World.start Breaker.BreakerConfig.standard none)).run recordingGuard
      answeredAndDropped).visits[i]?
        = some v ∧ v.request = order ∧ v.place = .gone := by
  match i, hi with
  | 0, _ => exact ⟨_, rfl, rfl, rfl⟩
  | 1, _ => exact ⟨_, rfl, rfl, rfl⟩

/-- The order that was answered is recorded, although nobody has read the response. -/
theorem recorded_iff_returned_answered :
    let s₀ := start (World.start Breaker.BreakerConfig.standard none)
    recordingGuard.records order = true
      ∧ .invoked 0 ∈ (s₀.run recordingGuard answeredAndDropped).world.history
      ∧ Recorded recordingGuard s₀ answeredAndDropped 0 order := by
  intro s₀
  obtain ⟨v, hv, hrequest, hplace⟩ := gone_answeredAndDropped (i := 0) (by decide)
  have hrecords : recordingGuard.records v.request = true := by rw [hrequest, records_order]
  have hcalled : .invoked 0 ∈ (s₀.run recordingGuard answeredAndDropped).world.history := by
    rw [history_answeredAndDropped]
    simp
  obtain ⟨hrecorded, -⟩ := recorded_iff_returned recordingGuard Breaker.BreakerConfig.standard none
    answeredAndDropped 0 v hv hrecords hcalled (.inl hplace)
  rw [hrequest] at hrecorded
  refine ⟨records_order, hcalled, hrecorded.2 ⟨.ok (⟨201⟩, Headers.empty), ?_⟩⟩
  rw [history_answeredAndDropped]
  simp

/-- **A call that is dropped while its handler is running leaves nothing.** The second order was
selected, its handler was called, nothing is left of it, and there is no record of it. -/
theorem not_recorded_dropped :
    let s₀ := start (World.start Breaker.BreakerConfig.standard none)
    let s := s₀.run recordingGuard answeredAndDropped
    recordingGuard.records order = true ∧ .invoked 1 ∈ s.world.history
      ∧ (∃ v, s.visits[1]? = some v ∧ v.request = order ∧ v.place = .gone)
      ∧ ¬Recorded recordingGuard s₀ answeredAndDropped 1 order := by
  intro s₀ s
  obtain ⟨v, hv, hrequest, hplace⟩ := gone_answeredAndDropped (i := 1) (by decide)
  have hrecords : recordingGuard.records v.request = true := by rw [hrequest, records_order]
  have haccount :=
    account_run recordingGuard Breaker.BreakerConfig.standard none answeredAndDropped hv hrecords
      (.inl hplace)
  refine ⟨records_order, by rw [history_answeredAndDropped]; simp, ⟨v, hv, hrequest, hplace⟩, ?_⟩
  rintro ⟨record, hmem, -⟩
  have hnothing : writtenBy recordingGuard 1 s₀ answeredAndDropped = [] := by
    cases haccount with
    | never _ hnothing => exact hnothing
    | lost _ hnothing => exact hnothing
    | recorded result _ hreturned =>
      rw [World.mem_eventsOf_iff (i := 1) rfl, history_answeredAndDropped] at hreturned
      simp at hreturned
  rw [hnothing] at hmem
  exact List.not_mem_nil hmem

end Gates

end Gatehouse.Pipeline
