/-
Every step at the gates is a move.

Each function of a visit is taken apart once, into the moves that it can make (`moved_arrive` to
`moved_leave`). `step_ledger` is what everything after this rests on: whatever happens at the
gates is a move of one visit, the arrival of one with a move of its own, a removal of old
records, or nothing.
-/
import Gatehouse.Proofs.Pipeline.Ledger

set_option autoImplicit false

namespace Gatehouse.Pipeline

open Gatehouse.Http Gatehouse.Idempotency Gatehouse.Routing Gatehouse.Traffic

namespace Visit

/-! ## Every step of a visit is a move -/

section

variable (g : Guard) (now : Nat)

/-- A visit that gives up its claim is without one afterwards, and otherwise as it was. -/
theorem unclaim_eq (w : World) (v : Visit) :
    (v.unclaim w).1.ledger = w.ledger.giveUp v.id v.claim
      ∧ (v.unclaim w).2 = { v with claim := none } := by
  unfold unclaim
  obtain ⟨id, request, arrivedAt, policy, permit, claim, place⟩ := v
  cases claim
  · exact ⟨rfl, rfl⟩
  · exact ⟨World.ledger_unclaim w id _, rfl⟩

/-- Settling a permission is no business of the ledger: the visit is without one afterwards, and
otherwise as it was. -/
theorem settle_eq (w : World) (v : Visit) (failed : Bool) :
    (v.settle w failed now).1.ledger = w.ledger
      ∧ (v.settle w failed now).2 = { v with permit := none } := by
  unfold settle
  obtain ⟨id, request, arrivedAt, policy, permit, claim, place⟩ := v
  cases permit
  · exact ⟨rfl, rfl⟩
  · exact ⟨World.ledger_settle w id _ failed (now - arrivedAt) now, rfl⟩

/-- Handing it back is no business of the ledger either. -/
theorem handBack_eq (w : World) (v : Visit) :
    (v.handBack w now).1.ledger = w.ledger ∧ (v.handBack w now).2 = { v with permit := none } := by
  unfold handBack
  obtain ⟨id, request, arrivedAt, policy, permit, claim, place⟩ := v
  cases permit
  · exact ⟨rfl, rfl⟩
  · exact ⟨World.ledger_handBack w id _ now, rfl⟩

/-- A visit that ends in a failure gives up its claim first, and its permission is settled then. -/
theorem unclaim_settle_eq (w : World) (v : Visit) (failed : Bool) :
    ((v.unclaim w).2.settle (v.unclaim w).1 failed now).1.ledger = w.ledger.giveUp v.id v.claim
      ∧ ((v.unclaim w).2.settle (v.unclaim w).1 failed now).2
        = { v with claim := none, permit := none } := by
  obtain ⟨hunclaimed, hvisit⟩ := unclaim_eq w v
  obtain ⟨hsettled, hlast⟩ := settle_eq now (v.unclaim w).1 (v.unclaim w).2 failed
  exact ⟨hsettled.trans hunclaimed, by rw [hlast, hvisit]⟩

theorem unclaim_handBack_eq (w : World) (v : Visit) :
    ((v.unclaim w).2.handBack (v.unclaim w).1 now).1.ledger = w.ledger.giveUp v.id v.claim
      ∧ ((v.unclaim w).2.handBack (v.unclaim w).1 now).2
        = { v with claim := none, permit := none } := by
  obtain ⟨hunclaimed, hvisit⟩ := unclaim_eq w v
  obtain ⟨hback, hlast⟩ := handBack_eq now (v.unclaim w).1 (v.unclaim w).2
  exact ⟨hback.trans hunclaimed, by rw [hlast, hvisit]⟩

/-- A visit that is answered is without a permission, and stands where it is answered. -/
theorem answer_eq (w : World) (v : Visit) (status : Status) (headers : Headers)
    (passage : Passage) :
    (v.answer g w status headers passage now).1.ledger = w.ledger
      ∧ (v.answer g w status headers passage now).2
        = { v with permit := none, place := .answered status headers passage } := by
  obtain ⟨hledger, hvisit⟩ := settle_eq now w v (g.countsAsFailure status)
  exact ⟨hledger, congrArg (fun u => { u with place := .answered status headers passage }) hvisit⟩

/-- A visit that is answered after its ledger got an event has moved, if that is a move. -/
theorem moved_answer {given : Option Response} {x : Ledger} {v : Visit} (w : World) (u : Visit)
    (hid : u.id = v.id) (hrequest : u.request = v.request) (hpolicy : u.policy = v.policy)
    (status : Status) (headers : Headers) (passage : Passage)
    (h : Moves g now given x v w.ledger u.claim (.answered status headers passage)) :
    Moved g now given x v (u.answer g w status headers passage now).1.ledger
      (u.answer g w status headers passage now).2 := by
  obtain ⟨hledger, hvisit⟩ := answer_eq g now w u status headers passage
  rw [hledger, hvisit]
  exact ⟨hid, hrequest, hpolicy, h⟩

variable (given : Option Response)

/-- A visit whose key is claimed by another may be rejected. -/
theorem moved_reject (w : World) (v : Visit) {key : String} (hwants : v.Wants g key) :
    Moved g now given w.ledger v (v.reject g w key now).1.ledger (v.reject g w key now).2 := by
  refine moved_answer g now _ _ rfl rfl rfl _ _ _ ?_
  rw [World.ledger_note _ rfl]
  exact .rejected key _ _ hwants

/-- A visit that is answered with a record has moved, if that is a move. -/
theorem moved_answerRecord {x : Ledger} {v : Visit} (w : World) (record : Record)
    (h : Moves g now given x v w.ledger v.claim (recordPlace record)) :
    Moved g now given x v (v.answerRecord g w record now).1.ledger
      (v.answerRecord g w record now).2 :=
  moved_answer g now w v rfl rfl rfl _ _ _ h

/-- **A claim attempt** is one of four moves, by what the store has under the key and by the policy
for keys in flight. -/
theorem moved_claimKey (w : World) (v : Visit) {key : String} (hwants : v.Wants g key) :
    Moved g now given w.ledger v (v.claimKey g w key now).1.ledger (v.claimKey g w key now).2 := by
  rcases w.store.claim_cases key now with ⟨hclaim, hfree⟩ | ⟨n, hclaim, hslot⟩
      | ⟨record, storedAt, hclaim, hslot, hkept⟩
  · -- the key is free
    have hledger : (({ w with store := w.store.take key }.note (.claimed v.id key)).note
        (.invoked v.id)).ledger = w.ledger.take v.id key := by
      rw [World.ledger_note _ rfl, World.ledger_note _ rfl]
      rfl
    rw [claimKey, hclaim]
    refine ⟨rfl, rfl, rfl, ?_⟩
    dsimp only [execute]
    rw [hledger]
    exact .claims key _ hwants hfree
  · -- somebody else has claimed it
    rw [claimKey, hclaim]
    cases hpolicy : g.inFlight with
    | reject => exact moved_reject g now given w v hwants
    | wait => exact ⟨rfl, rfl, rfl, .waits key n hwants hslot⟩
  · -- there is a record
    rw [claimKey, hclaim]
    refine moved_answerRecord g now given _ record ?_
    rw [World.ledger_note _ rfl]
    exact .replays key record storedAt hwants hslot hkept

/-- **At the idempotency gate** a fresh visit passes without a key, is refused, or tries to claim
its key. -/
theorem moved_enter (w : World) (v : Visit) (hfresh : v.Fresh) :
    Moved g now given w.ledger v (v.enter g w now).1.ledger (v.enter g w now).2 := by
  unfold enter
  by_cases hneeds : g.needsKey v.policy = true
  · rw [if_pos hneeds]
    cases hkey : key? g v.request with
    | ok key => exact moved_claimKey g now given w v (.inl ⟨hfresh, hneeds, hkey⟩)
    | error refusal =>
      have hnone : ∀ key, ¬v.AsksFor g key := fun key h => nomatch hkey.symm.trans h.2
      refine moved_answer g now _ _ rfl rfl rfl _ _ _ ?_
      rw [World.ledger_note _ rfl, hfresh.claim]
      exact .refused _ _ _ hfresh hnone
  · -- without an idempotent policy no key is asked for, whatever the request has
    rw [if_neg hneeds]
    have hnone : ∀ key, ¬v.AsksFor g key := fun key h => hneeds h.1
    refine ⟨rfl, rfl, rfl, ?_⟩
    dsimp only [execute]
    rw [World.ledger_note _ rfl, hfresh.claim]
    exact .passes _ hfresh hnone

/-- A request that comes is a fresh visit that moves. -/
theorem moved_arrive (w : World) (id : Nat) (request : Request) (preset : Option RoutePolicy) :
    ∃ v : Visit, v.Fresh ∧ v.id = id
      ∧ Moved g now given w.ledger v (arrive g w id request preset now).1.ledger
        (arrive g w id request preset now).2 := by
  unfold arrive
  generalize g.policyFor preset request = policy
  let v : Visit :=
    { id, request, arrivedAt := now, policy, permit := none, claim := none, place := .gone }
  by_cases hneeds : g.needsPermission policy = true
  case neg =>
    simp only [hneeds]
    exact ⟨v, ⟨rfl, rfl⟩, rfl, moved_enter g now given w v ⟨rfl, rfl⟩⟩
  case pos =>
    simp only [hneeds, if_true]
    have hledger := World.ledger_breaker w policy.breakerName now .acquire
    rcases hperform : w.breaker policy.breakerName now .acquire with ⟨granted, opened⟩
    rw [hperform] at hledger
    cases granted with
    | true =>
      -- the permission is noted before the visit enters, and the ledger does not see it
      have hmoved := moved_enter g now given (opened.note (.granted id policy.breakerName))
        { v with permit := some policy.breakerName } ⟨rfl, rfl⟩
      rw [World.ledger_note_permission _ rfl, hledger] at hmoved
      exact ⟨{ v with permit := some policy.breakerName }, ⟨rfl, rfl⟩, rfl, hmoved⟩
    | false =>
      refine ⟨v, ⟨rfl, rfl⟩, rfl, moved_answer g now _ _ rfl rfl rfl _ _ _ ?_⟩
      rw [World.ledger_note _ rfl, World.ledger_count, World.ledger_tell, hledger]
      exact .denied policy.breakerName _ _ _ ⟨rfl, rfl⟩

/-! ### Steps of a visit that is there -/

/-- A step that does not fit the place of a visit is a move that changes nothing. -/
theorem moved_stays (x : Ledger) (v : Visit) : Moved g now given x v x v := ⟨rfl, rfl, rfl, .stays⟩

theorem moved_resume (w : World) (v : Visit) (timedOut : Bool) :
    Moved g now given w.ledger v (v.resume g w timedOut now).1.ledger
      (v.resume g w timedOut now).2 := by
  unfold resume
  cases hplace : v.place with
  | waiting key handle =>
    dsimp only
    have hwants : v.Wants g key := .inr ⟨handle, hplace⟩
    -- no ending yet, a record, or a release, after which the key is claimed anew
    rcases hended : w.store.ending? handle with _ | ⟨record⟩ | _
    · cases timedOut with
      | true => exact moved_reject g now given w v hwants
      | false => exact moved_stays g now given w.ledger v
    · refine moved_answerRecord g now given _ record ?_
      rw [World.ledger_note _ rfl]
      exact .replaysAwaited key handle record hplace hended
    · exact moved_claimKey g now given w v hwants
  | _ => exact moved_stays g now given w.ledger v

theorem moved_readRequest (w : World) (v : Visit) :
    Moved g now given w.ledger v w.ledger v.readRequest.2 := by
  unfold readRequest
  cases hplace : v.place with
  | executing passage => exact ⟨rfl, rfl, rfl, .reads passage _ hplace⟩
  | _ => exact moved_stays g now given w.ledger v

/-- A handler that fails ends its visit, and with it the claim that the visit has. -/
theorem moved_reply_error (w : World) (v : Visit) (error : String) :
    Moved g now given w.ledger v (v.reply g w (.error error) now).1.ledger
      (v.reply g w (.error error) now).2 := by
  unfold reply
  cases hplace : v.place with
  | executing passage =>
    -- first the event and the traffic record, then the claim, then the permission
    let noted := (w.note (.returned v.id (.error error))).emit (passage.failed g.recorder error)
    have hnoted : noted.ledger = w.ledger.note (.returned v.id (.error error)) :=
      (World.ledger_emit _ _).trans (World.ledger_note w rfl)
    obtain ⟨hledger, hvisit⟩ := unclaim_settle_eq now noted v true
    change Moved g now given w.ledger v
      ((v.unclaim noted).2.settle (v.unclaim noted).1 true now).1.ledger
      { ((v.unclaim noted).2.settle (v.unclaim noted).1 true now).2 with place := .failed error }
    rw [hledger, hvisit, hnoted]
    exact ⟨rfl, rfl, rfl, .fails passage error hplace⟩
  | _ => exact moved_stays g now given w.ledger v

/-- A handler that answers ends its visit if there is no claim; if there is one, the response is to
be stored. -/
theorem moved_reply_ok (w : World) (v : Visit) (response : Response) :
    Moved g now (some response) w.ledger v (v.reply g w (.ok response) now).1.ledger
      (v.reply g w (.ok response) now).2 := by
  unfold reply
  cases hplace : v.place with
  | executing passage =>
    have hnoted : (w.note (.returned v.id (.ok (response.status, response.headers)))).ledger
        = w.ledger.note (.returned v.id (.ok (response.status, response.headers))) :=
      World.ledger_note _ rfl
    -- a visit without a claim asked for no key, and its response goes out as it is
    cases hclaim : v.claim with
    | none =>
      refine moved_answer g now _ _ rfl rfl rfl _ _ _ ?_
      rw [hnoted, hclaim]
      exact .answers passage _ response hplace hclaim rfl
    | some key =>
      refine ⟨rfl, rfl, rfl, ?_⟩
      dsimp only
      rw [hnoted]
      exact .captures key passage _ response hplace hclaim rfl (Passage.responseBody?_respond _ _ _)
  | _ => exact moved_stays g now (some response) w.ledger v

/-- **What a poll of a response finds** that is to be stored: the end, a failure, or a frame. -/
theorem pollResponse_cases (r : Recorder) (p : Passage) :
    ((p.pollResponse r now).1 = .ended ∧ ∀ body, p.responseBody? = some body → body.pieces = [])
      ∨ (∃ error, (p.pollResponse r now).1 = .failure error)
      ∨ ∃ frame, (p.pollResponse r now).1 = .frame frame
        ∧ ∀ body, p.responseBody? = some body → ∃ rest, body.pieces = .frame frame :: rest
          ∧ (p.pollResponse r now).2.2.responseBody? = some { body with pieces := rest } := by
  cases hbody : p.responseBody? with
  | none =>
    -- without a response a poll finds the end at once
    refine .inl ⟨?_, nofun⟩
    cases p with
    | direct request response => exact absurd hbody nofun
    | recorded x =>
      have hnone : x.response = none := Option.map_eq_none_iff.1 hbody
      rw [Passage.pollResponse, RecordedExchange.pollResponse, hnone]
  | some body =>
    obtain ⟨hresult, hnext⟩ := Passage.pollResponse_of_body (r := r) hbody now
    rw [hresult, hnext]
    rcases hpieces : body.pieces with _ | ⟨frame | error, rest⟩
    · refine .inl ⟨by rw [Body.poll, hpieces], fun other hother => ?_⟩
      rw [← Option.some.inj hother, hpieces]
    · refine .inr
        (.inr ⟨frame, by rw [Body.poll, hpieces]; rfl, fun other hother => ⟨rest, ?_, ?_⟩⟩)
      · rw [← Option.some.inj hother, hpieces]
      · rw [← Option.some.inj hother, Body.poll, hpieces]
    · exact .inr (.inl ⟨error, by rw [Body.poll, hpieces]; rfl⟩)

/-- One poll of a response that is to be stored: there may be more of it, it is stored, or it cannot
be read. -/
theorem moved_absorb (w : World) (v : Visit) :
    Moved g now given w.ledger v (v.absorb g w now).1.ledger (v.absorb g w now).2 := by
  unfold absorb
  cases hplace : v.place with
  | storing key status headers passage reading =>
    have hpoll := pollResponse_cases now g.recorder passage
    dsimp only
    -- the poll is known by its three cases from here on
    generalize passage.pollResponse g.recorder now = polled at hpoll ⊢
    obtain ⟨result, emission, next⟩ := polled
    dsimp only at hpoll ⊢
    rcases hpoll with ⟨hresult, hbody⟩ | ⟨error, hresult⟩ | ⟨frame, hresult, hbody⟩
    · -- the end
      subst hresult
      dsimp only [answerRecord]
      refine moved_answer (v := v) g now _
        { v with claim := none, place := .storing key status headers passage reading } rfl
          rfl rfl _ _ _ ?_
      rw [World.ledger_storeRecord, World.ledger_emit]
      exact .stores key status headers passage reading hplace hbody
    · -- a failure
      subst hresult
      obtain ⟨hledger, hvisit⟩ := unclaim_eq ((w.emit emission).tell
        (.captureFailed key (Refusal.captureFailed error).message)) v
      dsimp only [answerResponse]
      refine moved_answer (v := v) g now _
        _ (by rw [hvisit]) (by rw [hvisit]) (by rw [hvisit]) _ _ _ ?_
      rw [hledger, hvisit, World.ledger_tell, World.ledger_emit]
      exact .captureFails key status headers passage reading _ _ hplace
    · -- a frame
      subst hresult
      exact ⟨rfl, rfl, rfl, .absorbs key status headers passage next reading frame hplace hbody⟩
  | _ => exact moved_stays g now given w.ledger v

theorem moved_deliver (w : World) (v : Visit) :
    Moved g now given w.ledger v (v.deliver g w now).2.1.ledger (v.deliver g w now).2.2 := by
  unfold deliver
  cases hplace : v.place with
  | answered status headers passage =>
    exact ⟨rfl, rfl, rfl, .delivers status headers passage _ hplace⟩
  | _ => exact moved_stays g now given w.ledger v

theorem moved_leave (w : World) (v : Visit) :
    Moved g now given w.ledger v (v.leave g w now).1.ledger (v.leave g w now).2 := by
  obtain ⟨hledger, hvisit⟩ := unclaim_handBack_eq now (w.emit (v.droppedEmission g now)) v
  -- `unfold` would leave the pairs taken apart by a match, so the goal is stated with projections
  change Moved g now given w.ledger v
    ((v.unclaim (w.emit (v.droppedEmission g now))).2.handBack
      (v.unclaim (w.emit (v.droppedEmission g now))).1 now).1.ledger
    { ((v.unclaim (w.emit (v.droppedEmission g now))).2.handBack
      (v.unclaim (w.emit (v.droppedEmission g now))).1 now).2 with place := .gone }
  rw [hledger, hvisit, World.ledger_emit]
  exact ⟨rfl, rfl, rfl, .leaves⟩

end

end Visit

/-! ## Steps of the gates -/

/-- The time of an action that looks at the clock. -/
def Action.time? : Action → Option Nat
  | .arrive _ _ now => some now
  | .resume _ _ now => some now
  | .readRequest _ => none
  | .reply _ _ now => some now
  | .absorb _ now => some now
  | .deliver _ now => some now
  | .leave _ now => some now
  | .purge now => some now

namespace Gates

/-- **Steps of the ledger and the visits:** what an action can do to them. -/
inductive LedgerStep (g : Guard) (a : Action) (x : Ledger) (visits : List Visit) :
    Ledger → List Visit → Prop where
  | idle : LedgerStep g a x visits x visits
  /-- A visit moves. The handler gives a response only where the action says so. -/
  | visit (i now : Nat) (given : Option Response) (v u : Visit) (after : Ledger)
      (hv : visits[i]? = some v) (hmoved : Visit.Moved g now given x v after u)
      (hgiven : ∀ response, given = some response → a = .reply i (.ok response) now)
      (htime : a.time? = some now ∨ after = x) :
    LedgerStep g a x visits after (visits.set i u)
  /-- A visit comes, and moves at once. -/
  | arrive (now : Nat) (v u : Visit) (after : Ledger) (hfresh : v.Fresh)
      (hid : v.id = visits.length) (hmoved : Visit.Moved g now none x v after u)
      (htime : a.time? = some now) :
    LedgerStep g a x visits after (visits ++ [u])
  | purge (now : Nat) (htime : a.time? = some now) : LedgerStep g a x visits (x.purge now) visits

/-- A step of one visit is a step of the ledger and the visits if it moves that visit. -/
theorem onVisit_ledger {g : Guard} {a : Action} (s : Gates) (i now : Nat) (given : Option Response)
    (f : World → Visit → World × Visit)
    (hmoved : ∀ v, Visit.Moved g now given s.world.ledger v (f s.world v).1.ledger (f s.world v).2)
    (hgiven : ∀ response, given = some response → a = .reply i (.ok response) now)
    (htime : a.time? = some now ∨ ∀ v, (f s.world v).1.ledger = s.world.ledger) :
    LedgerStep g a s.world.ledger s.visits (s.onVisit i f).world.ledger (s.onVisit i f).visits := by
  unfold onVisit
  cases hv : s.visits[i]? with
  | none => exact .idle
  | some v =>
    exact .visit i now given v _ _ hv (hmoved v) hgiven (htime.imp_right fun hall => hall v)

/-- **Every step of the gates** is one of these. -/
theorem step_ledger (g : Guard) (s : Gates) (a : Action) :
    LedgerStep g a s.world.ledger s.visits (s.step g a).world.ledger (s.step g a).visits := by
  cases a with
  | arrive request preset now =>
    obtain ⟨v, hfresh, hid, hmoved⟩ :=
      Visit.moved_arrive g now none s.world s.visits.length request preset
    exact .arrive now v _ _ hfresh hid hmoved rfl
  | resume i timedOut now =>
    exact onVisit_ledger s i now none _
      (fun v => Visit.moved_resume g now none s.world v timedOut) nofun
      (.inl rfl)
  | readRequest i =>
    exact onVisit_ledger s i 0 none _ (fun v => Visit.moved_readRequest g 0 none s.world v) nofun
      (.inr fun _ => rfl)
  | reply i result now =>
    cases result with
    | error error =>
      exact onVisit_ledger s i now none _
        (fun v => Visit.moved_reply_error g now none s.world v error)
        nofun (.inl rfl)
    | ok response =>
      exact onVisit_ledger s i now (some response) _
        (fun v => Visit.moved_reply_ok g now s.world v response)
        (fun other hother => by rw [Option.some.inj hother]) (.inl rfl)
  | absorb i now =>
    exact onVisit_ledger s i now none _ (fun v => Visit.moved_absorb g now none s.world v)
      nofun (.inl rfl)
  | deliver i now =>
    exact onVisit_ledger s i now none _ (fun v => Visit.moved_deliver g now none s.world v)
      nofun (.inl rfl)
  | leave i now =>
    exact onVisit_ledger s i now none _ (fun v => Visit.moved_leave g now none s.world v)
      nofun (.inl rfl)
  | purge now => exact .purge now rfl

/-! ## Runs -/

theorem run_concat (g : Guard) (s : Gates) (actions : List Action) (a : Action) :
    s.run g (actions ++ [a]) = (s.run g actions).step g a := by
  rw [run, List.foldl_append]
  rfl

end Gates
end Gatehouse.Pipeline
