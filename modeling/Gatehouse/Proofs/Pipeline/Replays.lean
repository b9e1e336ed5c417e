/-
Where the answers of the idempotency gate come from.

A record reaches a client in two ways: the visit whose response it is stores it, and gets the
response of the record itself; and a visit that finds it, or has waited for it, gets the same
response. Either is noted in the history, so the history says which record a client is given
(`handsOn_of_shown`). And no record is ever given to anybody that some visit has not stored:
whatever is in a slot of the store, or has completed a claim, was stored by somebody (`traced_run`),
however old it may be by now.

What remains is a visit whose handler has answered. If it has asked for a key, then what its client
is given is the record of that answer, or the answer could not be read (`stored_of_gave`). If it
needs none, its client has what the handler returned (`handsOn_of_no_key`).
-/
import Gatehouse.Proofs.Pipeline.OneVisit
import Gatehouse.Proofs.Pipeline.Untouched

set_option autoImplicit false

namespace Gatehouse.Pipeline

open Gatehouse.Http Gatehouse.Idempotency Gatehouse.Routing Gatehouse.Traffic

/-- **The response of a record,** as a client is given it. -/
def rebuilt (record : Record) : Response :=
  { status := record.status, headers := Headers.ofList record.headers,
    body := Body.ofBytes record.body }

/-- The record that an event shows to the client of its visit. -/
def Event.record? : Event → Option Record
  | .stored _ record => some record
  | .replayed _ record _ => some record
  | _ => none

/-- A record was stored by some visit. -/
def Ledger.Stores (x : Ledger) (record : Record) : Prop := ∃ j, .stored j record ∈ x.decisions

/-- A record that a visit can be given: it is in a slot, or has completed a claim. -/
def Ledger.Offers (x : Ledger) (record : Record) : Prop :=
  (∃ key storedAt, x.store.slot? key = some (.ready record storedAt))
    ∨ ∃ n, (n, Ending.completed record) ∈ x.store.endings

/-- A response whose next piece is a failure cannot be read to its end. -/
theorem ReadSoFar.not_readable {response : Response} {status : Status} {headers : Headers}
    {passage : Passage} {reading : Reading} (h : ReadSoFar response status headers passage reading)
    {recorder : Recorder} {now : Nat} {error : String}
    (hfailed : (passage.pollResponse recorder now).1 = .failure error) :
    ¬Readable response.body := by
  obtain ⟨read, rest, hpassage, hpieces, -, -⟩ := h.body
  obtain ⟨hpoll, -⟩ := Passage.pollResponse_of_body (r := recorder) hpassage now
  rw [hfailed] at hpoll
  intro hreadable
  cases hrest : rest.pieces with
  | nil =>
    rw [Body.poll, hrest] at hpoll
    cases hpoll
  | cons piece more =>
    have hmem : piece ∈ response.body.pieces := by
      rw [hpieces, hrest]
      exact List.mem_append_right _ List.mem_cons_self
    obtain ⟨frame, rfl⟩ := hreadable piece hmem
    rw [Body.poll, hrest] at hpoll
    cases hpoll

namespace Ledger

section

variable {x : Ledger} {e : Event} {record : Record}

theorem mem_of_mem_note {added : Event} (he : e ∈ (x.note added).decisions)
    (hrecord : e.record? = some record) (hnone : added.record? = none) : e ∈ x.decisions := by
  rcases List.mem_append.1 he with hold | hnew
  · exact hold
  · rw [List.mem_singleton.1 hnew, hnone] at hrecord
    contradiction

theorem mem_of_mem_giveUp {visit : Nat} {claim : Option String}
    (he : e ∈ (x.giveUp visit claim).decisions) (hrecord : e.record? = some record) :
    e ∈ x.decisions := by
  cases claim with
  | none => exact he
  | some key => exact mem_of_mem_note he hrecord rfl

theorem mem_of_mem_take {visit : Nat} {key : String} (he : e ∈ (x.take visit key).decisions)
    (hrecord : e.record? = some record) : e ∈ x.decisions :=
  mem_of_mem_note (x := { x with store := x.store.take key })
    (mem_of_mem_note he hrecord rfl) hrecord rfl

theorem Offers.of_purge {now : Nat} (h : (x.purge now).Offers record)
    (hdistinct : x.store.Distinct) :
    x.Offers record := by
  rcases h with ⟨key, storedAt, hslot⟩ | hended
  · refine .inl ⟨key, storedAt, ?_⟩
    have hpurged := hdistinct.slot?_purge now key
    rw [show (x.store.purge now).2.slot? key = some (.ready record storedAt) from hslot] at hpurged
    exact (Option.filter_eq_some_iff.1 hpurged.symm).1
  · exact .inr hended

end

end Ledger

namespace Visit

section

variable {g : Guard} {now : Nat} {given : Option Response} {x after : Ledger} {v : Visit}
  {claim : Option String} {place : Place} {record : Record}

/-- **A record that a move shows** is what the client gets in it. The visit that does so stores it,
or is offered it. -/
theorem Moves.shows (h : Moves g now given x v after claim place) {e : Event}
    (he : e ∈ after.decisions) (hrecord : e.record? = some record) :
    e ∈ x.decisions
      ∨ e.visit = v.id ∧ place = recordPlace record ∧ (v.Fresh ∨ v.place.UnderWay)
        ∧ (e = .stored v.id record ∨ x.Offers record) := by
  have hwants : ∀ {key}, v.Wants g key → v.Fresh ∨ v.place.UnderWay := by
    rintro key (⟨hfresh, -⟩ | ⟨handle, hplace⟩)
    · exact .inl hfresh
    · rw [hplace]
      exact .inr trivial
  cases h with
  | replays key found storedAt hwant hslot =>
    rcases List.mem_append.1 he with hold | hnew
    · exact .inl hold
    · rw [List.mem_singleton.1 hnew] at hrecord ⊢
      cases hrecord
      exact .inr ⟨rfl, rfl, hwants hwant, .inr (.inl ⟨key, storedAt, hslot⟩)⟩
  | replaysAwaited key handle found hplace hended =>
    rcases List.mem_append.1 he with hold | hnew
    · exact .inl hold
    · rw [List.mem_singleton.1 hnew] at hrecord ⊢
      cases hrecord
      exact .inr ⟨rfl, rfl, hwants (.inr ⟨handle, hplace⟩),
        .inr (.inr ⟨_, Store.mem_endings_of_ending? hended⟩)⟩
  | stores key status headers passage reading hplace =>
    rcases List.mem_append.1 he with hold | hnew
    · exact .inl hold
    · rw [List.mem_singleton.1 hnew] at hrecord ⊢
      cases hrecord
      refine .inr ⟨rfl, rfl, .inr ?_, .inl rfl⟩
      rw [hplace]
      trivial
  -- no other move notes an event that shows a record
  | stays => exact .inl he
  | waits => exact .inl he
  | reads => exact .inl he
  | absorbs => exact .inl he
  | delivers => exact .inl he
  | claims => exact .inl (Ledger.mem_of_mem_take he hrecord)
  | fails => exact .inl (Ledger.mem_of_mem_note (Ledger.mem_of_mem_giveUp he hrecord) hrecord rfl)
  | captureFails => exact .inl (Ledger.mem_of_mem_giveUp he hrecord)
  | leaves => exact .inl (Ledger.mem_of_mem_giveUp he hrecord)
  | _ => exact .inl (Ledger.mem_of_mem_note he hrecord rfl)

/-- What is offered after a move was offered before it, or is stored in it. -/
theorem Effect.offers (h : Effect g now x v after claim) (hoffers : after.Offers record) :
    x.Offers record ∨ .stored v.id record ∈ after.decisions := by
  cases h with
  | notes events hquiet => exact .inl hoffers
  | takes key hclaim hasks hfree =>
    rcases hoffers with ⟨other, storedAt, hslot⟩ | hended
    · by_cases hkey : key = other
      · subst hkey
        rw [show (x.take v.id key).store = x.store.take key from rfl,
          Store.slot?_take_self] at hslot
        cases hslot
      · exact .inl (.inl ⟨other, storedAt, (x.store.slot?_take_of_ne hkey).symm.trans hslot⟩)
    · exact .inl (.inr hended)
  | givesUp events hquiet =>
    cases hclaim : v.claim with
    | none =>
      rw [hclaim] at hoffers
      exact .inl hoffers
    | some key =>
      rw [hclaim] at hoffers
      rcases hoffers with ⟨other, storedAt, hslot⟩ | ⟨n, hended⟩
      · exact .inl (.inl ⟨other, storedAt, Store.ready_release_iff.1 hslot⟩)
      · exact .inl (.inr ⟨n, Store.mem_endings_release.1 hended⟩)
  | completes key status headers passage reading hclaim hplace hbody =>
    have hstored : ∀ found : Record,
        Event.stored v.id found ∈ (x.complete v.id found now).decisions := fun _ =>
      List.mem_append_right _ (List.mem_singleton.2 rfl)
    rcases hoffers with ⟨other, storedAt, hslot⟩ | ⟨n, hended⟩
    · by_cases hkey : key = other
      · subst hkey
        cases (x.store.slot?_complete_self _ now).symm.trans hslot
        exact .inr (hstored _)
      · exact .inl
          (.inl ⟨other, storedAt, (x.store.slot?_complete_of_ne _ now hkey).symm.trans hslot⟩)
    · rcases Store.mem_endings_complete.1 hended with hold | ⟨m, hslot, hnew⟩
      · exact .inl (.inr ⟨n, hold⟩)
      · cases hnew
        exact .inr (hstored _)

end

end Visit

namespace Gates

section

variable {g : Guard} {config : Breaker.BreakerConfig} {ttlMs : Option Nat} {i : Nat}

/-! ## Records that are shown -/

/-- **Invariant:** every record that is offered, or that somebody was given, was
stored by some visit. -/
structure Traced (x : Ledger) : Prop where
  offered : ∀ record, x.Offers record → x.Stores record
  shown : ∀ e record, e ∈ x.decisions → e.record? = some record → x.Stores record

theorem Traced.move {x after : Ledger} (h : Traced x) {v u : Visit} {now : Nat}
    {given : Option Response} (hsound : v.Sound g) (hmoved : Visit.Moved g now given x v after u) :
    Traced after := by
  have heffect := hmoved.moves.effect hsound
  have hkept : ∀ record, x.Stores record → after.Stores record := by
    rintro record ⟨j, hstored⟩
    obtain ⟨more, hmore, -⟩ := decisions_of_effect record.key heffect
    rw [Ledger.Stores, hmore]
    exact ⟨j, List.mem_append_left _ hstored⟩
  refine ⟨fun record hoffers => ?_, fun e record he hrecord => ?_⟩
  · rcases heffect.offers hoffers with hold | hnew
    · exact hkept record (h.offered record hold)
    · exact ⟨v.id, hnew⟩
  · rcases hmoved.moves.shows he hrecord with hold | ⟨-, -, -, rfl | hoffers⟩
    · exact hkept record (h.shown e record hold hrecord)
    · exact ⟨v.id, he⟩
    · exact hkept record (h.offered record hoffers)

/-- **On every run** a record that somebody is given was stored by some visit, however old it is. -/
theorem traced_run (g : Guard) (config : Breaker.BreakerConfig) (ttlMs : Option Nat)
    (actions : List Action) :
    Traced ((initial config ttlMs).run g actions).world.ledger := by
  induction actions using List.reverseRecOn with
  | nil =>
    refine ⟨?_, fun e record he => absurd he List.not_mem_nil⟩
    rintro record (⟨key, storedAt, hslot⟩ | ⟨n, hended⟩)
    · cases hslot
    · exact absurd hended List.not_mem_nil
  | append_singleton actions a ih =>
    rw [run_concat]
    have howned := owned_run g config ttlMs actions
    -- ownership goes along because only a sound visit has one of the four effects
    have hboth := (step_ledger g ((initial config ttlMs).run g actions) a).preserves
      (motive := fun y ys => Owned g y ys ∧ Traced y) ⟨howned, ih⟩
      (fun v hfresh hid => ⟨howned.come hfresh hid, ih⟩)
      (fun there j now given v u after hx hv hmoved _ _ =>
        ⟨hx.1.move hv hmoved, hx.2.move (hx.1.sound j v hv) hmoved⟩)
      (fun now _ => ⟨howned.purge now, fun record hoffers =>
        ih.offered record (hoffers.of_purge howned.numbered.distinct), ih.shown⟩)
    exact hboth.2

/-! ## What is given with a record -/

theorem mem_decisions_iff {w : World} {e : Event} {record : Record}
    (hrecord : e.record? = some record) :
    e ∈ w.ledger.decisions ↔ e ∈ w.history := by
  have hdecision : e.isPermission = false := by
    cases e with
    | stored visit found => rfl
    | replayed visit found waited => rfl
    | _ => cases hrecord
  rw [World.ledger, List.mem_filter, hdecision]
  exact and_iff_left rfl

theorem handsOn_recordPlace (record : Record) :
    Visit.HandsOn (fun result => result = .ok (rebuilt record)) [] (Visit.recordPlace record) :=
  .answered (rebuilt record) _ _ rfl rfl rfl

/-- **The client of a visit that a record is shown to** has the response of the record. -/
theorem handsOn_of_shown (actions : List Action) {u : Visit}
    (hu : ((initial config ttlMs).run g actions).visits[i]? = some u) {e : Event} {record : Record}
    (he : e ∈ ((initial config ttlMs).run g actions).world.history) (hvisit : e.visit = i)
    (hrecord : e.record? = some record) :
    ¬u.place.UnderWay ∧ Visit.HandsOn (fun result => result = .ok (rebuilt record))
      (deliveredTo g i (initial config ttlMs) actions) u.place := by
  revert he
  refine visit_run
    (motive := fun actions u => e ∈ ((initial config ttlMs).run g actions).world.history →
      ¬u.place.UnderWay ∧ Visit.HandsOn (fun result => result = .ok (rebuilt record))
        (deliveredTo g i (initial config ttlMs) actions) u.place) ?_ ?_ ?_ actions hu
  · intro actions request preset now u hnext hafter he
    obtain ⟨v, hfresh, -, hmoved⟩ :=
      Visit.moved_arrive g now none ((initial config ttlMs).run g actions).world i
        request preset
    rw [hafter] at hmoved
    rw [deliveredTo_arrive hnext]
    rcases hmoved.moves.shows ((mem_decisions_iff hrecord).2 he) hrecord
      with hold | ⟨-, hplace, -, -⟩
    · exact absurd (hvisit.trans hnext)
        (visit_ne_of_mem_history ((mem_decisions_iff hrecord).1 hold))
    · rw [hplace]
      exact ⟨not_false, handsOn_recordPlace record⟩
  · intro actions a v u hv ha hafter ih he
    obtain ⟨now, given, hmoved⟩ :=
      Visit.moved_act g ((initial config ttlMs).run g actions).world v a
    obtain ⟨later, events, records, -, -, hdeed, -⟩ := does_of_act hv hafter
    rw [hafter] at hmoved
    rw [deliveredTo_act hv ha]
    rcases hmoved.moves.shows ((mem_decisions_iff hrecord).2 he) hrecord
      with hold | ⟨-, hplace, hbefore, -⟩
    · obtain ⟨hover, hhas⟩ := ih ((mem_decisions_iff hrecord).1 hold)
      obtain ⟨-, hclaim⟩ := gaveBack_run actions v (List.mem_of_getElem? hv) hover
      refine ⟨hdeed.over hover, ?_⟩
      have hnext :=
        hhas.act (g := g) ((initial config ttlMs).run g actions).world hclaim (a := a) ?_
      · rwa [hafter] at hnext
      · intro j result now passage hreply hexecuting
        rw [hexecuting] at hover
        exact absurd trivial hover
    · have hunder : v.place.UnderWay := by
        rcases hbefore with hfresh | hunder
        · cases (hdeed.gone hfresh.place).symm.trans hplace
        · exact hunder
      rw [hplace, deliveredTo_of_underWay actions hv hunder, Visit.polledIn_of_underWay hunder]
      exact ⟨not_false, handsOn_recordPlace record⟩
  · intro actions a v hv hactor ih he
    rw [deliveredTo_of_ne hactor]
    exact ih (mem_history_of_others (by rwa [hvisit]) he)

/-- A visit whose handler answers for a key does not have the answer yet. -/
theorem storing_reply {v : Visit} {passage : Passage} (hplace : v.place = .executing passage)
    {key : String} (hclaim : v.claim = some key) (w : World) (response : Response) (now : Nat) :
    ∃ taken, (v.reply g w (.ok response) now).2.place
      = .storing key response.status response.headers taken Reading.start := by
  simp only [Visit.reply, hplace, hclaim]
  exact ⟨_, rfl⟩

/-- A place where a client has an answer. -/
def Answered (place : Place) : Prop :=
  ∃ status headers passage, place = .answered status headers passage

/-- A visit at its handler that asks for a key is not answered by what the handler returns: it has
the claim on the key, so the response is stored first. -/
theorem not_answered_reply {v : Visit} (hsound : v.Sound g) {key : String} (hasks : v.AsksFor g key)
    {passage : Passage} (hplace : v.place = .executing passage) (w : World) (response : Response)
    (now : Nat) : ¬Answered (v.reply g w (.ok response) now).2.place := by
  have hatHandler : v.place.AtHandler := by
    rw [hplace]
    trivial
  have hclaim : v.claim = some key := (hsound.claim_eq_some_iff key).2 ⟨hasks, hatHandler⟩
  obtain ⟨taken, hstoring⟩ := storing_reply (g := g) hplace hclaim w response now
  rintro ⟨status, headers, answered, hanswered⟩
  cases hstoring.symm.trans hanswered

/-- **How a visit whose handler has answered comes to be answered:** it was answered before, or the
response has been read now, to its end or to a failure. -/
theorem answered_deed (actions : List Action) {v : Visit}
    (hv : ((initial config ttlMs).run g actions).visits[i]? = some v) {response : Response}
    (hgave : Gave g (initial config ttlMs) actions i response) {now : Nat} {events : List Event}
    {records : List TrafficRecord} {last : Place} (hdeed : v.Deed g now events records last)
    (hanswered : Answered last) :
    Answered v.place ∨ (∃ record, .stored i record ∈ events) ∨ ¬Readable response.body := by
  obtain ⟨hreplied, honly⟩ := Gave.once actions hv response hgave
  obtain ⟨status, headers, answered, hlast⟩ := hanswered
  cases hdeed with
  | stays => exact .inl ⟨status, headers, answered, hlast⟩
  | delivers before beforeHeaders taken hbefore =>
    exact .inl ⟨before, beforeHeaders, taken, hbefore⟩
  | captureFails other before beforeHeaders taken reading error _ _ hstoring hfailed =>
    obtain ⟨own, hown, hread⟩ :=
      (sourced_run g config ttlMs actions).storing i v _ _ _ _ _ hv hstoring
    rw [honly own hown] at hread
    exact .inr (.inr (hread.not_readable hfailed))
  | stores other before beforeHeaders taken reading record hstoring =>
    refine .inr (.inl ⟨record, ?_⟩)
    rw [(owned_run g config ttlMs actions).id i v hv]
    exact List.mem_singleton.2 rfl
  -- a handler that has answered is not called, and does not answer again
  | passes other handle events place hwaiting =>
    rw [hwaiting] at hreplied
    exact hreplied.elim
  | answers taken given hexecuting =>
    rw [hexecuting] at hreplied
    exact hreplied.elim
  | _ => cases hlast

/-- **A visit that is answered after its handler** and has asked for a key has stored the response,
or the response could not be read. -/
theorem stored_of_gave (actions : List Action) {u : Visit}
    (hu : ((initial config ttlMs).run g actions).visits[i]? = some u) {key : String}
    (hasks : u.AsksFor g key) (hanswered : Answered u.place) {response : Response}
    (hgave : Gave g (initial config ttlMs) actions i response) :
    (∃ record, .stored i record ∈ ((initial config ttlMs).run g actions).world.history)
      ∨ ¬Readable response.body := by
  revert hasks hanswered hgave
  refine visit_run (motive := fun actions u => u.AsksFor g key → Answered u.place →
    Gave g (initial config ttlMs) actions i response →
    (∃ record, .stored i record ∈ ((initial config ttlMs).run g actions).world.history)
      ∨ ¬Readable response.body) ?_ ?_ ?_ actions hu
  · intro actions request preset now u hnext hafter hasks hanswered hgave
    rcases hgave.of_concat with hold | ⟨later, v, passage, ha, -⟩
    · exact absurd hold.lt_length (Nat.not_lt.2 (Nat.le_of_eq hnext.symm))
    · cases ha
  · intro actions a v u hv ha hafter ih hasks hanswered hgave
    obtain ⟨now, given, hmoved⟩ :=
      Visit.moved_act g ((initial config ttlMs).run g actions).world v a
    obtain ⟨later, events, records, -, -, hdeed, hgrows⟩ := does_of_act hv hafter
    rw [hafter] at hmoved
    rw [hmoved.asksFor] at hasks
    rcases hgave.of_concat with hold | ⟨again, w, passage, rfl, hw, hexecuting⟩
    · rw [hgrows.history]
      rcases answered_deed actions hv hold hdeed hanswered
        with hbefore | ⟨record, hstored⟩ | hunreadable
      · rcases ih hasks hbefore hold with ⟨record, hstored⟩ | hunreadable
        · exact .inl ⟨record, List.mem_append_left _ hstored⟩
        · exact .inr hunreadable
      · exact .inl ⟨record, List.mem_append_right _ (List.mem_append_left _ hstored)⟩
      · exact .inr hunreadable
    · cases hv.symm.trans hw
      have hsound := (owned_run g config ttlMs actions).sound i v hv
      have hu : (v.reply g _ (.ok response) again).2 = u := congrArg Prod.snd hafter
      rw [← hu] at hanswered
      exact absurd hanswered (not_answered_reply hsound hasks hexecuting _ response again)
  · intro actions a v hv hactor ih hasks hanswered hgave
    have hold : Gave g (initial config ttlMs) actions i response := by
      rcases hgave.of_concat with hold | ⟨later, w, passage, rfl, -⟩
      · exact hold
      · exact absurd rfl hactor
    rcases ih hasks hanswered hold with ⟨record, hstored⟩ | hunreadable
    · rw [run_concat]
      exact .inl ⟨record, mem_history_step (gaveBack_run actions) hstored⟩
    · exact .inr hunreadable

/-! ## Visits that need no key -/

/-- A visit that needs no key is denied by its breaker, or is at its handler as it comes. -/
theorem executing_arrive (w : World) (request : Request) (preset : Option RoutePolicy) (now : Nat)
    (hkey : g.needsKey (g.policyFor preset request) = false) :
    (∃ passage, (Visit.arrive g w i request preset now).2.place = .executing passage)
      ∨ ∃ name, .denied i name ∈ (Visit.arrive g w i request preset now).1.history := by
  have henter : ∀ (w : World) (v : Visit), g.needsKey v.policy = false →
      ∃ passage, (v.enter g w now).2.place = .executing passage := by
    intro w v hnone
    rw [Visit.enter, hnone]
    exact ⟨_, rfl⟩
  by_cases hneeds : g.needsPermission (g.policyFor preset request) = true
  · cases hanswer : (w.registry.perform (g.policyFor preset request).breakerName now .acquire).1
      with
    | false => exact .inr ⟨_, Visit.denied_arrive w now i request preset hneeds hanswer⟩
    | true =>
      have hgranted : (w.breaker (g.policyFor preset request).breakerName now .acquire).1 = true :=
        hanswer
      left
      unfold Visit.arrive
      simp only [hneeds, if_true, hgranted]
      exact henter _ _ hkey
  · left
    unfold Visit.arrive
    simp only [hneeds]
    exact henter _ _ hkey

/-- **The client of a visit that needs no key,** and was not denied by its breaker, has what its
handler returned. -/
theorem handsOn_of_no_key (actions : List Action) {u : Visit}
    (hu : ((initial config ttlMs).run g actions).visits[i]? = some u)
    (hkey : g.needsKey u.policy = false)
    (hdenied : ∀ name, .denied i name ∉ ((initial config ttlMs).run g actions).world.history) :
    Visit.HandsOn (Returned g (initial config ttlMs) actions i)
      (deliveredTo g i (initial config ttlMs) actions)
      u.place := by
  revert hkey hdenied
  refine visit_run (motive := fun actions u => g.needsKey u.policy = false →
    (∀ name, .denied i name ∉ ((initial config ttlMs).run g actions).world.history) →
    Visit.HandsOn (Returned g (initial config ttlMs) actions i)
      (deliveredTo g i (initial config ttlMs) actions)
      u.place) ?_ ?_ ?_ actions hu
  · intro actions request preset now u hnext hafter hkey hdenied
    obtain ⟨-, hpolicy⟩ :=
      Visit.request_policy_arrive g ((initial config ttlMs).run g actions).world i request preset
        now
    have hplace :=
      executing_arrive (g := g) (i := i) ((initial config ttlMs).run g actions).world
        request preset now
    rw [hafter] at hpolicy hplace
    rw [hpolicy] at hkey
    rcases hplace hkey with ⟨passage, hexecuting⟩ | ⟨name, hname⟩
    · rw [hexecuting]
      exact .executing passage (deliveredTo_arrive hnext request preset now)
    · exact absurd hname (hdenied name)
  · intro actions a v u hv ha hafter ih hkey hdenied
    obtain ⟨now, given, hmoved⟩ :=
      Visit.moved_act g ((initial config ttlMs).run g actions).world v a
    rw [hafter] at hmoved
    rw [hmoved.policy] at hkey
    have hbefore : ∀ name,
        .denied i name ∉ ((initial config ttlMs).run g actions).world.history := by
      intro name hname
      apply hdenied name
      rw [run_concat]
      exact mem_history_step (gaveBack_run actions) hname
    -- such a visit asks for no key, so there is nothing that it could have a claim on
    have hclaim : v.claim = none := by
      refine Option.eq_none_iff_forall_ne_some.2 fun key hheld => ?_
      have hasks :=
        (((owned_run g config ttlMs actions).sound i v hv).claim_eq_some_iff key).1 hheld
      exact absurd (hasks.1.1.symm.trans hkey) nofun
    have hnext := ((ih hkey hbefore).mono fun result h => h.concat a).act (g := g)
      ((initial config ttlMs).run g actions).world hclaim (a := a) ?_
    · rw [hafter] at hnext
      rwa [deliveredTo_act hv ha]
    · rintro j result now passage rfl hexecuting
      cases ha
      exact ⟨actions, now, [], v, passage, rfl, hv, hexecuting⟩
  · intro actions a v hv hactor ih hkey hdenied
    have hbefore : ∀ name,
        .denied i name ∉ ((initial config ttlMs).run g actions).world.history := by
      intro name hname
      apply hdenied name
      rw [run_concat]
      exact mem_history_step (gaveBack_run actions) hname
    rw [deliveredTo_of_ne hactor]
    exact (ih hkey hbefore).mono fun result h => h.concat a

end

end Gates
end Gatehouse.Pipeline
