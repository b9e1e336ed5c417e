/-
What the metrics say of a run.

The counters are the books of the history (`balanced_run`), so most of what they show is a matter of
reading it: settlements, denials, records. What is left is the idempotency gate. A visit that needs
a key and is not denied is counted there once when it is over, under what has happened to it, with
three exceptions, and no others: it was dropped before it was over, its handler failed, or the
response that was to be stored could not be read (`Loss`). Which of these has happened is read off
the actions of the run and the places in which they found the visit, not off the history
(`lossesOf`). Step by step, a visit that is over has either been counted or lost its count (`Fate`).
The denials of a breaker are traced back in the same way, to the requests that were answered that
its circuit is open (`answeredOpen`).
-/
import Gatehouse.Proofs.Pipeline.Counters
import Gatehouse.Proofs.Pipeline.Untouched
import Gatehouse.Proofs.Places

set_option autoImplicit false

namespace Gatehouse.Pipeline

open Gatehouse.Breaker Gatehouse.Http Gatehouse.Idempotency Gatehouse.Routing Gatehouse.Traffic

/-! ## Fates -/

/-- **Why nothing is counted** for a visit at the idempotency gate. -/
inductive Loss where
  /-- It was dropped before it was over. -/
  | cancelled
  /-- Its handler failed. -/
  | failed
  /-- The response that was to be stored could not be read. -/
  | unreadable
  deriving DecidableEq, Repr

/-- What the metrics call the events of the idempotency gate among some events. -/
def labelsOf (fault : Nat → IdempotencyEvent) (events : List Event) : List IdempotencyEvent :=
  events.filterMap (Event.idempotencyEvent? fault)

/-- **Fate of a visit** at the idempotency gate, by its place: it is not over, it has been counted,
or it has lost its count. -/
inductive Fate (labels : List IdempotencyEvent) (losses : List Loss) (place : Place) : Prop where
  | unfinished (hplace : place.UnderWay) (hlabels : labels = []) (hlosses : losses = [])
  | counted (hplace : ¬place.UnderWay) (label : IdempotencyEvent) (hlabels : labels = [label])
      (hlosses : losses = [])
  | lost (hplace : ¬place.UnderWay) (hlabels : labels = []) (hlosses : losses ≠ [])

/-- **A step keeps account of a visit:** what it notes and what the visit loses go with the place
that it is in then. -/
inductive Reckons (fault : Nat → IdempotencyEvent) (w after : World) (losses : List Loss)
    (place : Place) : Prop
  | intro (events : List Event) (records : List TrafficRecord)
      (hgrows : w.Grows after events records) (hfate : Fate (labelsOf fault events) losses place)

theorem labelsOf_append (fault : Nat → IdempotencyEvent) (events more : List Event) :
    labelsOf fault (events ++ more) = labelsOf fault events ++ labelsOf fault more :=
  List.filterMap_append

namespace Visit

/-- **What a visit loses its count by** in an action. -/
def lossIn (g : Guard) (_ : World) (v : Visit) : Action → List Loss
  | .leave _ _ => if v.place.UnderWay then [.cancelled] else []
  | .reply _ (.error _) _ =>
    match v.place with
    | .executing _ => [.failed]
    | _ => []
  | .absorb _ now =>
    match v.place with
    | .storing _ _ _ passage _ =>
      match (passage.pollResponse g.recorder now).1 with
      | .failure _ => [.unreadable]
      | _ => []
    | _ => []
  | _ => []

section

variable {fault : Nat → IdempotencyEvent} {g : Guard} {w : World} {v : Visit} {now : Nat}
  {events : List Event} {place : Place}

@[simp] theorem labelsOf_settling : labelsOf fault (v.settling g place) = [] := by
  refine List.filterMap_eq_nil_iff.2 fun e he => ?_
  obtain ⟨-, name, -, rfl⟩ := mem_settling_iff.1 he
  rfl

@[simp] theorem labelsOf_unclaiming : labelsOf fault v.unclaiming = [] := by
  refine List.filterMap_eq_nil_iff.2 fun e he => ?_
  obtain ⟨key, -, rfl⟩ := mem_unclaiming_iff.1 he
  rfl

/-- A visit that comes to the idempotency gate is counted if it is over, and else it is not. -/
theorem Passes.fate (h : Passes g now v events place) : Fate (labelsOf fault events) [] place := by
  cases h with
  | refused headers body => exact .counted not_false (fault v.id) rfl rfl
  | called key =>
    refine .unfinished trivial ?_ rfl
    cases key with
    | none => rfl
    | some key => rfl
  | replays record waited => exact .counted not_false _ rfl rfl
  | waits key handle => exact .unfinished trivial rfl rfl
  | rejected key headers body => exact .counted not_false .rejected rfl rfl

/-! ### Steps of a visit -/

/-- What is over stays over, and nothing of the idempotency gate is noted any more. -/
theorem Deed.ended {records : List TrafficRecord} (h : Deed g now v events records place)
    (hended : ¬v.place.UnderWay) : labelsOf fault events = [] ∧ ¬place.UnderWay := by
  have helsewhere : ∀ {other : Place}, v.place = other → other.UnderWay → False := fun heq hother =>
    hended (heq ▸ hother)
  cases h with
  | stays => exact ⟨rfl, hended⟩
  | delivers => exact ⟨rfl, not_false⟩
  | leaves => exact ⟨labelsOf_unclaiming, not_false⟩
  | passes _ _ _ _ hplace => exact (helsewhere hplace trivial).elim
  | reads _ hplace => exact (helsewhere hplace trivial).elim
  | fails _ _ hplace => exact (helsewhere hplace trivial).elim
  | answers _ _ hplace => exact (helsewhere hplace trivial).elim
  | captures _ _ _ hplace => exact (helsewhere hplace trivial).elim
  | absorbs _ _ _ _ _ _ hplace => exact (helsewhere hplace trivial).elim
  | captureFails _ _ _ _ _ _ _ _ hplace => exact (helsewhere hplace trivial).elim
  | stores _ _ _ _ _ _ hplace => exact (helsewhere hplace trivial).elim

theorem lossIn_of_ended (hended : ¬v.place.UnderWay) (a : Action) : v.lossIn g w a = [] := by
  cases a with
  | reply i result now =>
    cases result with
    | error error =>
      cases hplace : v.place with
      | executing passage => rw [hplace] at hended; exact absurd trivial hended
      | _ => simp only [lossIn, hplace]
    | ok response => rfl
  | absorb i now =>
    cases hplace : v.place with
    | storing key status headers passage reading =>
      rw [hplace] at hended; exact absurd trivial hended
    | _ => simp only [lossIn, hplace]
  | leave i now => exact if_neg hended
  | _ => rfl

theorem reckons_of_enters {after : World} {u : Visit} (h : Enters g now w v after u) :
    Reckons fault w after [] u.place := by
  obtain ⟨events, -, -, hpasses, hgrows⟩ := h
  refine ⟨_, [], hgrows, ?_⟩
  rw [labelsOf_append, labelsOf_settling, List.append_nil]
  exact hpasses.fate

theorem reckons_stays (w : World) (hplace : v.place.UnderWay) : Reckons fault w w [] v.place :=
  ⟨[], [], .refl w, .unfinished hplace rfl rfl⟩

theorem reckons_resume (w : World) (hplace : v.place.UnderWay) (timedOut : Bool) (now : Nat) :
    Reckons fault w (v.resume g w timedOut now).1 [] (v.resume g w timedOut now).2.place := by
  unfold resume
  cases hwaiting : v.place with
  | waiting key handle =>
    dsimp only
    rcases w.store.ending? handle with _ | ⟨record⟩ | _
    · cases timedOut with
      | true => exact reckons_of_enters (enters_reject now (.refl w) v key)
      | false => exact reckons_stays w hplace
    · have hnoted :=
        (((World.Grows.refl w).tell (.replayingAfterWait key)).count
          (.idempotencyEvents .waited)).note
          (.replayed v.id record true)
      exact reckons_of_enters (enters_answer now hnoted (.replays record true))
    · exact reckons_of_enters (enters_claimKey now w v key)
  | _ => exact reckons_stays w hplace

theorem reckons_readRequest (w : World) (hplace : v.place.UnderWay) :
    Reckons fault w w [] v.readRequest.2.place := by
  unfold readRequest
  cases hexecuting : v.place with
  | executing passage => exact ⟨[], [], .refl w, .unfinished trivial rfl rfl⟩
  | _ => exact reckons_stays w hplace

/-- At the handler nothing is counted before the response has been read to its end. -/
theorem Deed.unread {records : List TrafficRecord} (h : Deed g now v events records place)
    (hv : v.place.AtHandler)
    (hunread : ∀ key status headers passage reading,
      v.place = .storing key status headers passage reading →
      (passage.pollResponse g.recorder now).1 ≠ .ended) : labelsOf fault events = [] := by
  cases h with
  | passes _ _ _ _ hplace => rw [hplace] at hv; exact hv.elim
  | stores key status headers passage reading record hplace hended =>
    exact absurd hended (hunread key status headers passage reading hplace)
  | fails => exact (List.filterMap_cons_none rfl).trans labelsOf_unclaiming
  | captureFails => exact labelsOf_unclaiming
  | leaves => exact labelsOf_unclaiming
  | _ => rfl

theorem Does.unread {after : World} {u : Visit} (h : Does g now w v after u)
    (hv : v.place.AtHandler)
    (hunread : ∀ key status headers passage reading,
      v.place = .storing key status headers passage reading →
      (passage.pollResponse g.recorder now).1 ≠ .ended) :
    ∃ events records, w.Grows after events records ∧ labelsOf fault events = [] := by
  obtain ⟨events, records, -, -, hdeed, hgrows⟩ := h
  refine ⟨_, records, hgrows, ?_⟩
  rw [labelsOf_append, labelsOf_settling, List.append_nil]
  exact hdeed.unread hv hunread

/-- With a claim, only a handler that fails ends the visit before its response is read. -/
theorem reckons_reply (w : World) (hback : v.GaveBack) (hplace : v.place.UnderWay)
    (hclaim : ∀ passage, v.place = .executing passage → v.claim ≠ none) (i : Nat)
    (result : Except String Response) (now : Nat) :
    Reckons fault w (v.reply g w result now).1 (v.lossIn g w (.reply i result now))
      (v.reply g w result now).2.place := by
  cases hexecuting : v.place with
  | executing passage =>
    obtain ⟨events, records, hgrows, hlabels⟩ : ∃ events records,
        w.Grows (v.reply g w result now).1 events records
        ∧ labelsOf fault events = [] :=
      (does_reply now w hback result).unread (hexecuting ▸ trivial) fun _ _ _ _ _ hstoring =>
        nomatch hexecuting.symm.trans hstoring
    refine ⟨events, records, hgrows, ?_⟩
    obtain ⟨key, hkey⟩ := Option.ne_none_iff_exists'.1 (hclaim passage hexecuting)
    cases result with
    | error error =>
      have hafter : (v.reply g w (.error error) now).2.place = .failed error := by
        rw [reply, hexecuting]
      rw [hafter, lossIn, hexecuting]
      exact .lost not_false hlabels (List.cons_ne_nil _ _)
    | ok response =>
      have hafter : (v.reply g w (.ok response) now).2.place.UnderWay := by
        rw [reply, hexecuting]
        dsimp only
        rw [hkey]
        trivial
      exact .unfinished hafter hlabels rfl
  | _ =>
    have hloss : v.lossIn g w (.reply i result now) = [] := by
      cases result <;> simp [lossIn, hexecuting]
    have hafter : v.reply g w result now = (w, v) := by rw [reply, hexecuting]
    rw [hloss, hafter]
    exact reckons_stays w hplace

/-- The response that was to be stored has ended, and the visit is counted as it is stored. -/
theorem reckons_stored (w : World) {key : String} {status : Status} {headers : Headers}
    {passage : Passage} {reading : Reading}
    (hstoring : v.place = .storing key status headers passage reading)
    (hended : (passage.pollResponse g.recorder now).1 = .ended) :
    Reckons fault w (v.absorb g w now).1 [] (v.absorb g w now).2.place := by
  let record := Record.ofResponse key { status, headers, body := (reading.add .ended).data }
  let emitted := w.emit (passage.pollResponse g.recorder now).2.1
  let bare : Visit := { v with claim := none, place := .storing key status headers passage reading }
  have hafter : v.absorb g w now
      = bare.answerRecord g (emitted.storeRecord v.id record now) record now := by
    unfold absorb
    rw [hstoring]
    dsimp only
    rw [hended]
  have hstored :=
    ((World.Grows.refl w).emit (passage.pollResponse g.recorder now).2.1).storeRecord
      v.id record now
  obtain ⟨-, -, hanswered, hgrows⟩ :=
    answer_parts (g := g) (v := v) (u := bare) now hstored rfl rfl rfl
      record.toResponse.status record.toResponse.headers (.ofBody (.ofBytes record.toResponse.body))
  have hlabels : labelsOf fault [.stored v.id record] = [.executed] := rfl
  rw [hafter]
  refine ⟨_, _, hgrows, .counted ?_ .executed ?_ rfl⟩
  · change ¬(bare.answer g _ _ _ _ now).2.place.UnderWay
    rw [hanswered]
    exact not_false
  · rw [labelsOf_append, labelsOf_settling, List.append_nil]
    exact hlabels

/-- The response that was to be stored is stored at its end, or it turns out to be unreadable. -/
theorem reckons_absorb (w : World) (hback : v.GaveBack) (hplace : v.place.UnderWay) (i now : Nat) :
    Reckons fault w (v.absorb g w now).1 (v.lossIn g w (.absorb i now))
      (v.absorb g w now).2.place := by
  cases hstoring : v.place with
  | storing key status headers passage reading =>
    -- before the end there is nothing to be counted
    have hunread : (passage.pollResponse g.recorder now).1 ≠ .ended → ∃ events records,
        w.Grows (v.absorb g w now).1 events records ∧ labelsOf fault events = [] := fun hne =>
      (does_absorb (g := g) now w hback).unread (hstoring ▸ trivial) fun _ _ _ _ _ hother => by
        cases hstoring.symm.trans hother
        exact hne
    cases hresult : (passage.pollResponse g.recorder now).1 with
    | ended =>
      have hloss : v.lossIn g w (.absorb i now) = [] := by simp only [lossIn, hstoring, hresult]
      rw [hloss]
      exact reckons_stored w hstoring hresult
    | failure error =>
      obtain ⟨events, records, hgrows, hlabels⟩ := hunread (by rw [hresult]; exact nofun)
      have hafter : ¬(v.absorb g w now).2.place.UnderWay := by
        unfold absorb
        rw [hstoring]
        dsimp only
        rw [hresult]
        exact not_false
      have hloss : v.lossIn g w (.absorb i now) = [.unreadable] := by
        simp only [lossIn, hstoring, hresult]
      exact ⟨events, records, hgrows, .lost hafter hlabels (hloss ▸ List.cons_ne_nil _ _)⟩
    | _ =>
      obtain ⟨events, records, hgrows, hlabels⟩ := hunread (by rw [hresult]; exact nofun)
      have hafter : (v.absorb g w now).2.place.UnderWay := by
        unfold absorb
        rw [hstoring]
        dsimp only
        rw [hresult]
        trivial
      have hloss : v.lossIn g w (.absorb i now) = [] := by simp only [lossIn, hstoring, hresult]
      exact ⟨events, records, hgrows, .unfinished hafter hlabels hloss⟩
  | _ =>
    have hloss : v.lossIn g w (.absorb i now) = [] := by simp only [lossIn, hstoring]
    have hafter : v.absorb g w now = (w, v) := by rw [absorb, hstoring]
    rw [hloss, hafter]
    exact reckons_stays w hplace

theorem deliver_of_underWay (w : World) (hplace : v.place.UnderWay) (now : Nat) :
    v.deliver g w now = (.ended, w, v) := by
  unfold deliver
  cases hanswered : v.place with
  | answered => rw [hanswered] at hplace; exact hplace.elim
  | _ => rfl

/-- A visit that is dropped is cancelled. -/
theorem reckons_leave (w : World) (hplace : v.place.UnderWay) (i now : Nat) :
    Reckons fault w (v.leave g w now).1 (v.lossIn g w (.leave i now))
      (v.leave g w now).2.place := by
  obtain ⟨events, records, -, -, hdeed, hgrows⟩ := does_leave (g := g) now w v
  have hlabels : labelsOf fault events = [] := by
    change Deed g now v events records .gone at hdeed
    generalize hgone : Place.gone = place at hdeed
    cases hdeed with
    | leaves => exact labelsOf_unclaiming
    | stays => rfl
    | passes _ _ _ _ _ hpasses => cases hpasses <;> cases hgone
    | _ => cases hgone
  refine ⟨_, records, hgrows, .lost not_false ?_ ?_⟩
  · rw [labelsOf_append, labelsOf_settling, hlabels]
    rfl
  · rw [lossIn, if_pos hplace]
    exact List.cons_ne_nil _ _

/-- **Whatever is done to a visit** that needs a key, its fate goes with its place. -/
theorem fate_act {told : List Event} {losses : List Loss}
    (h : Fate (labelsOf fault told) losses v.place) (w : World) (hback : v.GaveBack)
    (hclaim : ∀ passage, v.place = .executing passage → v.claim ≠ none) (a : Action) :
    ∃ events records, w.Grows (v.act g w a).1 events records
      ∧ Fate (labelsOf fault (told ++ events)) (losses ++ v.lossIn g w a)
        (v.act g w a).2.place := by
  by_cases hplace : v.place.UnderWay
  · -- nothing has been counted or lost before
    have hbefore : labelsOf fault told = [] ∧ losses = [] := by
      cases h with
      | unfinished _ hlabels hlosses => exact ⟨hlabels, hlosses⟩
      | counted hended => exact absurd hplace hended
      | lost hended => exact absurd hplace hended
    have hstep : Reckons fault w (v.act g w a).1 (v.lossIn g w a) (v.act g w a).2.place := by
      cases a with
      | resume i timedOut now => exact reckons_resume w hplace timedOut now
      | readRequest i => exact reckons_readRequest w hplace
      | reply i result now => exact reckons_reply w hback hplace hclaim i result now
      | absorb i now => exact reckons_absorb w hback hplace i now
      | deliver i now =>
        change Reckons fault w (v.deliver g w now).2.1 [] (v.deliver g w now).2.2.place
        rw [deliver_of_underWay w hplace]
        exact reckons_stays w hplace
      | leave i now => exact reckons_leave w hplace i now
      | arrive request preset now => exact reckons_stays w hplace
      | purge now => exact reckons_stays w hplace
    obtain ⟨events, records, hgrows, hfate⟩ := hstep
    refine ⟨events, records, hgrows, ?_⟩
    rw [labelsOf_append, hbefore.1, hbefore.2]
    exact hfate
  · obtain ⟨now, events, records, -, -, hdeed, hgrows⟩ := does_act (g := g) w hback a
    obtain ⟨hlabels, hended⟩ : labelsOf fault events = [] ∧ ¬(v.act g w a).2.place.UnderWay :=
      hdeed.ended hplace
    refine ⟨_, records, hgrows, ?_⟩
    rw [labelsOf_append, labelsOf_append, labelsOf_settling, hlabels, lossIn_of_ended hplace]
    simp only [List.append_nil]
    cases h with
    | unfinished hunderWay => exact absurd hunderWay hplace
    | counted _ label hcounted hlosses => exact .counted hended label hcounted hlosses
    | lost _ hcounted hlosses => exact .lost hended hcounted hlosses

end

end Visit

namespace Gates

/-! ## Fates of a run -/

/-- **What a visit has lost its count by** in a run. -/
def lossesOf (g : Guard) (i : Nat) (s : Gates) (actions : List Action) : List Loss :=
  gathered g (contributed i (Visit.lossIn g)) s actions

section

variable {g : Guard} {config : Breaker.BreakerConfig} {ttlMs : Option Nat} {actions : List Action}
  {i : Nat} {u : Visit} {fault : Nat → IdempotencyEvent}

/-- A visit that needs a key and has not been denied has the claim on it while it is
at the handler. -/
theorem claim_of_executing
    (hu : ((start (World.start config ttlMs)).run g actions).visits[i]? = some u)
    (hneeds : g.needsKey u.policy = true) {passage : Passage}
    (hplace : u.place = .executing passage) :
    u.claim ≠ none := by
  intro hclaim
  have howned := owned_run g config ttlMs actions
  have hasks := (howned.sound i u hu).of_executing_none hplace hclaim
  cases hkey : Visit.key? g u.request with
  | ok key => exact hasks key ⟨hneeds, hkey⟩
  | error refusal =>
    -- without a usable key it would have been turned away
    have haway := turnedAway_of_keyless hu hneeds (Visit.keyless_iff.2 ⟨refusal, hkey⟩)
    have hdismissal := kept_run (kept_dismissal g) config ttlMs actions i u hu
    rw [howned.id i u hu] at hdismissal
    obtain ⟨hgone | ⟨status, headers, body, hanswered⟩, -⟩ :=
      hdismissal.away (turnedAway_eventsOf_iff.2 haway)
    · exact nomatch hplace.symm.trans hgone
    · exact nomatch hplace.symm.trans hanswered

/-- A visit that comes and is not denied is counted if it is over, and else it is not. -/
theorem fate_of_comes (fault : Nat → IdempotencyEvent) {now number : Nat} {w after : World}
    (h : Visit.Comes g now w number after u)
    (hnot : ∀ name, .denied number name ∉ after.history) :
    ∃ events, w.Grows after events [] ∧ Fate (labelsOf fault events) [] u.place := by
  cases h with
  | denied name headers body hid hplace hgrows =>
    exact absurd (by simp [hgrows.history]) (hnot name)
  | enters v asked hnumber hasked henters =>
    obtain ⟨events, -, -, hpasses, hgrows⟩ := henters
    refine ⟨_, hasked.trans hgrows, ?_⟩
    have hgranted : labelsOf fault (v.permit.toList.map fun name => .granted v.id name) = [] := by
      cases v.permit <;> rfl
    rw [labelsOf_append, labelsOf_append, hgranted, Visit.labelsOf_settling, List.append_nil]
    exact hpasses.fate

/-- **On every run** a visit that needs a key and has not been denied has its fate. -/
theorem fate_run (hu : ((start (World.start config ttlMs)).run g actions).visits[i]? = some u)
    (hneeds : g.needsKey u.policy = true)
    (hnot : ∀ name,
      .denied i name ∉ ((start (World.start config ttlMs)).run g actions).world.history) :
    Fate (labelsOf fault (((start (World.start config ttlMs)).run g actions).world.eventsOf i))
      (lossesOf g i (start (World.start config ttlMs)) actions) u.place := by
  induction actions using List.reverseRecOn generalizing u with
  | nil => exact (not_getElem?_nil hu).elim
  | append_singleton actions a ih =>
    have howned := owned_run g config ttlMs actions
    have haccounted := accounted_run g config ttlMs actions
    have hback := haccounted.gaveBack howned
    rw [lossesOf, gathered_concat, ← lossesOf]
    rw [run_concat] at hu hnot ⊢
    obtain ⟨noted, written, hgrown, hvisit⟩ := grows_step (g := g) howned hback a
    have hbefore : ∀ name,
        .denied i name ∉ ((start (World.start config ttlMs)).run g actions).world.history :=
      fun name hdenied => hnot name (mem_history_step hback hdenied)
    rw [eventsOf_of_grows hgrown hvisit]
    by_cases hactor : ((start (World.start config ttlMs)).run g actions).actor? a = some i
    · rw [if_pos hactor]
      cases about_step hactor hu with
      | arrives request preset now ha hnext hafter =>
        subst ha hnext
        -- nothing was noted or lost under the new number before
        obtain ⟨-, hnew⟩ := haccounted.unborn _ (Nat.le_refl _)
        have hnothing :=
          gathered_of_length_le g (Visit.lossIn g) (start (World.start config ttlMs)) actions
            (Nat.le_refl _)
        have hcomes :=
          Visit.comes_arrive (g := g) now ((start (World.start config ttlMs)).run g actions).world
            ((start (World.start config ttlMs)).run g actions).visits.length request preset
        rw [hafter] at hcomes
        obtain ⟨events, hgrows, hfate⟩ := fate_of_comes fault hcomes hnot
        cases List.append_cancel_left (hgrown.history.symm.trans hgrows.history)
        have hquiet : ∀ j, (Action.arrive request preset now).visit? ≠ some j := nofun
        rw [hnew, lossesOf, hnothing, contributed_of_ne (hquiet _)]
        exact hfate
      | acts v hv ha hafter =>
        obtain ⟨now, given, hmoved⟩ :=
          Visit.moved_act g ((start (World.start config ttlMs)).run g actions).world v a
        rw [hafter] at hmoved
        have hneeded : g.needsKey v.policy = true := by rw [← hmoved.policy]; exact hneeds
        obtain ⟨events, records, hgrows, hfate⟩ := Visit.fate_act (ih hv hneeded hbefore)
          ((start (World.start config ttlMs)).run g actions).world
            (hback v (List.mem_of_getElem? hv))
          (fun passage hplace => claim_of_executing hv hneeded hplace) a
        rw [hafter] at hgrows hfate
        cases List.append_cancel_left (hgrown.history.symm.trans hgrows.history)
        rw [contributed_of_getElem? hv ha]
        exact hfate
    · rw [if_neg hactor, List.append_nil, contributed_of_ne fun ha => hactor (actor?_of_visit? ha),
        List.append_nil]
      exact ih (getElem?_of_step_of_ne hu hactor) hneeds hbefore

end

/-! ## Open circuits -/

/-- **A request is answered that its circuit is open,** in the action that it comes in: its breaker
does not admit it. -/
def AnswersOpen (g : Guard) (name : String) (s : Gates) (i : Nat) (a : Action) : Prop :=
  ∃ request preset now, a = .arrive request preset now ∧ i = s.visits.length ∧ Denies g s a
    ∧ (g.policyFor preset request).breakerName = name
    ∧ let answer := (Refusal.breakerOpen name).toResponse request.uri.path
      (Visit.arrive g s.world i request preset now).2.place
        = .answered answer.status answer.headers (.ofBody answer.body)

/-- **The visits of a run** that were answered that the circuit of a breaker is open. -/
def answeredOpen (g : Guard) (name : String) (s : Gates) (actions : List Action) : Set Nat :=
  { i | ∃ before a after, actions = before ++ a :: after ∧ AnswersOpen g name (s.run g before) i a }

theorem mem_answeredOpen_concat_iff {g : Guard} {name : String} {s : Gates} {actions : List Action}
    {a : Action} {i : Nat} :
    i ∈ answeredOpen g name s (actions ++ [a])
      ↔ i ∈ answeredOpen g name s actions ∨ AnswersOpen g name (s.run g actions) i a := by
  constructor
  · rintro ⟨before, b, after, heq, hopen⟩
    rcases concat_eq_append_cons_iff.1 heq with ⟨rest, rfl, -⟩ | ⟨rfl, rfl, -⟩
    · exact .inl ⟨before, b, rest, rfl, hopen⟩
    · exact .inr hopen
  · rintro (⟨before, b, after, rfl, hopen⟩ | hopen)
    · exact ⟨before, b, after ++ [a], by simp, hopen⟩
    · exact ⟨actions, a, [], rfl, hopen⟩

section

variable {g : Guard} {s : Gates} {name : String} {i : Nat}

/-- What is noted of a visit that has been admitted is no denial. -/
theorem denied_of_carries {now : Nat} {w after : World} {v u : Visit}
    (h : Visit.Carries g now w v after u) (hdenied : .denied i name ∈ after.history) :
    .denied i name ∈ w.history := by
  have haside : ∀ {before : World}, w.Aside v.id before → .denied i name ∈ before.history →
      .denied i name ∈ w.history := by
    intro before haside hmem
    obtain ⟨more, hhistory, hmore⟩ := haside.history
    rw [hhistory] at hmem
    exact (List.mem_append.1 hmem).resolve_right fun hnew => nomatch (hmore _ hnew).2
  cases h with
  | goesOn hgoes => exact haside hgoes hdenied
  | ends before hends hsettles =>
    refine haside hends ?_
    generalize v.permit = permit at hsettles
    cases hsettles with
    | nothing hregistry hhistory => rwa [hhistory] at hdenied
    | permission other hregistry hhistory => simpa [hhistory] using hdenied

theorem denied_of_does {now : Nat} {w after : World} {v u : Visit}
    (h : Visit.Does g now w v after u) (hdenied : .denied i name ∈ after.history) :
    .denied i name ∈ w.history := by
  obtain ⟨events, records, -, -, hdeed, hgrows⟩ := h
  have hquiet : .denied i name ∉ events := by
    generalize u.place = place at hdeed
    cases hdeed with
    | passes _ _ _ _ _ hpasses => cases hpasses <;> simp
    | _ => simp
  rw [hgrows.history] at hdenied
  simpa [hquiet] using hdenied

/-- A request of which a denial is noted as it comes is answered that its circuit is open. -/
theorem answersOpen_of_denied (request : Request) (preset : Option RoutePolicy) (now : Nat)
    (hdenied : .denied i name ∈ (s.step g (.arrive request preset now)).world.history) :
    .denied i name ∈ s.world.history ∨ AnswersOpen g name s i (.arrive request preset now) := by
  obtain ⟨-, hpolicy⟩ := Visit.request_policy_arrive g s.world s.visits.length request preset now
  change _ ∈ (Visit.arrive g s.world s.visits.length request preset now).1.history at hdenied
  cases Visit.arrives_arrive (g := g) now s.world s.visits.length request preset with
  | exempt v hnumber hneeds hpermit hid _ hcarries =>
    exact .inl (denied_of_carries hcarries hdenied)
  | granted v asked hnumber hneeds hpermit hgranted hregistry hhistory hid _ hcarries =>
    have hasked := denied_of_carries hcarries hdenied
    exact .inl (by simpa [hhistory] using hasked)
  | denied hnumber hneeds hpermit hrefused hregistry hhistory =>
    rw [hhistory, List.mem_append, List.mem_singleton] at hdenied
    refine hdenied.imp_right fun heq => ?_
    obtain ⟨rfl, rfl⟩ := Event.denied.inj heq
    rw [hpolicy] at hneeds hrefused ⊢
    refine ⟨request, preset, now, rfl, hnumber, ⟨hneeds, hrefused⟩, rfl, ?_⟩
    have hanswer : (s.world.breaker (g.policyFor preset request).breakerName now .acquire).1
        = false := hrefused
    unfold Visit.arrive
    simp only [hneeds, if_true, hanswer, Bool.false_eq_true, if_false]
    rfl

/-- **A denial is noted** in the step in which the request is answered that its circuit is open,
and in no other. -/
theorem denied_step_iff (hback : ∀ v ∈ s.visits, v.GaveBack) (a : Action) :
    .denied i name ∈ (s.step g a).world.history
      ↔ .denied i name ∈ s.world.history ∨ AnswersOpen g name s i a := by
  constructor
  · intro hdenied
    cases hactor : s.actor? a with
    | none =>
      cases a with
      | purge now => exact .inl hdenied
      | _ => cases hactor
    | some j =>
      rcases arrives_or_acts hactor with ⟨request, preset, now, rfl, -⟩ | ha
      · exact answersOpen_of_denied request preset now hdenied
      · cases hv : s.visits[j]? with
        | none =>
          rw [step_of_none hv ha] at hdenied
          exact .inl hdenied
        | some v =>
          rw [step_of_getElem? hv ha] at hdenied
          obtain ⟨now, hdoes⟩ :=
            Visit.does_act (g := g) s.world (hback v (List.mem_of_getElem? hv)) a
          exact .inl (denied_of_does hdoes hdenied)
  · rintro (hold | ⟨request, preset, now, rfl, rfl, ⟨hneeds, hdenied⟩, rfl, -⟩)
    · exact mem_history_step hback hold
    · exact Visit.denied_arrive s.world now _ request preset hneeds hdenied

variable (g) (config : Breaker.BreakerConfig) (ttlMs : Option Nat) (name) (actions : List Action)

/-- **The denials of a run** are those of the visits that were answered that the circuit of their
breaker is open. -/
theorem denied_run_iff :
    .denied i name ∈ ((start (World.start config ttlMs)).run g actions).world.history
      ↔ i ∈ answeredOpen g name (start (World.start config ttlMs)) actions := by
  induction actions using List.reverseRecOn with
  | nil =>
    refine iff_of_false List.not_mem_nil ?_
    rintro ⟨before, a, after, heq, -⟩
    exact absurd heq (by simp)
  | append_singleton actions a ih =>
    have hback := (accounted_run g config ttlMs actions).gaveBack (owned_run g config ttlMs actions)
    rw [run_concat, denied_step_iff hback, ih, mem_answeredOpen_concat_iff]

variable {g name config ttlMs actions} in
/-- A visit of which no denial is noted was not answered so. -/
theorem not_mem_answeredOpen
    (h : .denied i name ∉ ((start (World.start config ttlMs)).run g actions).world.eventsOf i) :
    i ∉ answeredOpen g name (start (World.start config ttlMs)) actions := fun hopen =>
  h ((World.mem_eventsOf_iff rfl).2 ((denied_run_iff g name config ttlMs actions).2 hopen))

/-- No visit is denied twice. -/
theorem countP_denies_le_one (i : Nat) :
    ((start (World.start config ttlMs)).run g actions).world.history.countP
      (fun e => e.denies name && e.visit == i) ≤ 1 := by
  let s := (start (World.start config ttlMs)).run g actions
  have haccounted := accounted_run g config ttlMs actions
  have hown : s.world.history.countP (fun e => e.denies name && e.visit == i)
      = (s.world.eventsOf i).countP (Event.denies name) := by
    rw [World.eventsOf, List.countP_filter]
  change s.world.history.countP _ ≤ 1
  rw [hown]
  rcases Nat.eq_zero_or_pos ((s.world.eventsOf i).countP (Event.denies name)) with hzero | hpos
  · exact hzero ▸ Nat.zero_le 1
  · obtain ⟨e, he, hdenies⟩ := List.countP_pos_iff.1 hpos
    cases hv : s.visits[i]? with
    | none =>
      rw [(haccounted.unborn i (List.getElem?_eq_none_iff.1 hv)).2] at he
      exact absurd he List.not_mem_nil
    | some v =>
      cases e with
      | denied j other =>
        have honly := events_of_denied (haccounted.course i v hv) he
        have hlength := List.countP_le_length (p := Event.denies name) (l := s.world.eventsOf i)
        rwa [honly] at hlength ⊢
      | _ => cases hdenies

/-- **The denials are as many as the visits that were answered so.** -/
theorem countP_denies_run :
    ((start (World.start config ttlMs)).run g actions).world.history.countP (Event.denies name)
      = (answeredOpen g name (start (World.start config ttlMs)) actions).ncard := by
  let denials :=
    ((start (World.start config ttlMs)).run g actions).world.history.filter (Event.denies name)
  have hnodup : (denials.map Event.visit).Nodup := by
    refine List.nodup_iff_count_le_one.2 fun i => ?_
    rw [List.count, List.countP_map, List.countP_filter]
    refine Nat.le_trans (Nat.le_of_eq ?_) (countP_denies_le_one g name config ttlMs actions i)
    exact List.countP_congr fun e _ => by simp [and_comm]
  have hset : answeredOpen g name (start (World.start config ttlMs)) actions
      = ↑(denials.map Event.visit).toFinset := by
    ext i
    rw [← denied_run_iff, List.coe_toFinset]
    simp only [List.mem_map, Set.mem_ofPred_eq, denials, List.mem_filter]
    constructor
    · intro hdenied
      exact ⟨.denied i name, ⟨hdenied, beq_self_eq_true name⟩, rfl⟩
    · rintro ⟨e, ⟨he, hdenies⟩, rfl⟩
      cases e with
      | denied i other => exact beq_iff_eq.1 hdenies ▸ he
      | _ => cases hdenies
  rw [hset, Set.ncard_coe_finset, List.toFinset_card_of_nodup hnodup, List.length_map,
    List.countP_eq_length_filter]

end

/-! ## What the metrics say -/

/-- What a visit is counted for at the idempotency gate. -/
theorem countedBy_idempotencyEvents {g : Guard} {config : Breaker.BreakerConfig}
    {ttlMs : Option Nat} {actions : List Action} {i : Nat} {v : Visit}
    (hv : ((start (World.start config ttlMs)).run g actions).visits[i]? = some v)
    (label : IdempotencyEvent) :
    countedBy g i (.idempotencyEvents label) (start (World.start config ttlMs)) actions
      = (labelsOf (fun _ => Visit.keyFault g v.request)
          (((start (World.start config ttlMs)).run g actions).world.eventsOf i)).count label := by
  obtain ⟨fault, hfault, -⟩ :=
    exists_knowsFaults g ((start (World.start config ttlMs)).run g actions)
  have hrecords : (recordCounters (writtenBy g i (start (World.start config ttlMs)) actions)).count
      (.idempotencyEvents label) = 0 := by
    rw [count_recordCounters]
    exact List.countP_eq_zero.2 fun r _ => by simp
  -- the events are all of this visit, so of all faults only its own is asked for
  have hown : labelsOf fault (((start (World.start config ttlMs)).run g actions).world.eventsOf i)
      = labelsOf (fun _ => Visit.keyFault g v.request)
          (((start (World.start config ttlMs)).run g actions).world.eventsOf i) := by
    refine List.filterMap_congr fun e he => ?_
    have hvisit : e.visit = i := beq_iff_eq.1 (List.mem_filter.1 he).2
    cases e with
    | keyRefused j =>
      cases hvisit
      exact congrArg some (hfault _ v hv)
    | _ => rfl
  rw [countedBy_run hfault, count_idempotencyEvents, hrecords, ← hown]
  rfl

/-- **The metrics agree with what has happened,** on every run:
- the calls and the durations of a breaker are the outcomes that it was told of, and its rejections
  are the visits that were answered that its circuit is open;
- the executions are the records that were stored, and the traffic that was logged, by its origin,
  is the traffic records that were written;
- every counter is the sum of what the visits have been counted for, and a visit that is over, needs
  a key and was not answered that its circuit is open, has been counted at the idempotency gate
  exactly once, for what has happened to it; but not at all if it was dropped before it was over,
  its handler failed, or the response that was to be stored could not be read. -/
theorem metrics_run (g : Guard) (config : Breaker.BreakerConfig) (ttlMs : Option Nat)
    (actions : List Action) :
    let s₀ := start (World.start config ttlMs)
    let t := s₀.run g actions
    (Performed config t.world.gateEvents t.world.registry
      ∧ ∀ name,
        t.world.outputs.value (.breakerCalls name false) = t.world.settlementsAs name .success
        ∧ t.world.outputs.value (.breakerCalls name true) = t.world.settlementsAs name .failure
        ∧ t.world.outputs.value (.breakerDurations name)
          = t.world.settlementsAs name .success + t.world.settlementsAs name .failure
        ∧ t.world.outputs.value (.breakerRejections name) = (answeredOpen g name s₀ actions).ncard)
      ∧ t.world.outputs.value (.idempotencyEvents .executed) = t.world.history.countP Event.stores
      ∧ (∀ origin, t.world.outputs.value (.trafficLogged origin)
        = t.world.outputs.records.countP fun r => r.origin = origin)
      ∧ (∀ c, t.world.outputs.value c
          = ∑ i ∈ Finset.range t.visits.length, countedBy g i c s₀ actions)
      ∧ ∀ (i : Nat) (v : Visit), t.visits[i]? = some v → ¬v.place.UnderWay →
        g.needsKey v.policy = true →
        (∀ name, i ∉ answeredOpen g name s₀ actions) →
        (lossesOf g i s₀ actions = [] → ∃ label,
          labelsOf (fun _ => Visit.keyFault g v.request) (t.world.eventsOf i) = [label]
            ∧ ∀ other,
              countedBy g i (.idempotencyEvents other) s₀ actions = if other = label then 1 else 0)
          ∧ (lossesOf g i s₀ actions ≠ [] →
              ∀ label, countedBy g i (.idempotencyEvents label) s₀ actions = 0) := by
  intro s₀ t
  obtain ⟨fault, hfault, hnone⟩ := exists_knowsFaults g t
  have hbalanced : t.world.Balanced fault := balanced_run g config ttlMs actions hfault
  refine ⟨⟨(accounted_run g config ttlMs actions).performed, fun name =>
      ⟨hbalanced.value_breakerCalls name false, hbalanced.value_breakerCalls name true, ?_, ?_⟩⟩,
    hbalanced.value_executed hnone, hbalanced.value_trafficLogged, value_eq_sum,
    fun i v hv hended hneeds hadmitted => ?_⟩
  · rw [hbalanced.value_breakerDurations, hbalanced.value_breakerCalls,
      hbalanced.value_breakerCalls]
    rfl
  · rw [hbalanced.value_breakerRejections]
    exact countP_denies_run g name config ttlMs actions
  · have hnot : ∀ name, .denied i name ∉ t.world.history := fun name hdenied =>
      hadmitted name ((denied_run_iff g name config ttlMs actions).1 hdenied)
    have hcounted : ∀ label, countedBy g i (.idempotencyEvents label) s₀ actions
        = (labelsOf (fun _ => Visit.keyFault g v.request) (t.world.eventsOf i)).count label :=
      countedBy_idempotencyEvents hv
    have hfate : Fate (labelsOf (fun _ => Visit.keyFault g v.request) (t.world.eventsOf i))
        (lossesOf g i s₀ actions) v.place := fate_run hv hneeds hnot
    cases hfate with
    | unfinished hplace => exact absurd hplace hended
    | counted _ label hlabels hlosses =>
      refine ⟨fun _ => ⟨label, hlabels, fun other => ?_⟩, fun hlost => absurd hlosses hlost⟩
      rw [hcounted, hlabels, List.count_singleton]
      exact if_congr (beq_iff_eq.trans eq_comm) rfl rfl
    | lost _ hlabels hlosses =>
      refine ⟨fun hkept => absurd hkept hlosses, fun _ label => ?_⟩
      rw [hcounted, hlabels, List.count_nil]

/-- An order comes without a key, and then one with a key, which fails. -/
def orderedInVain : List Action :=
  [.arrive { order with headers := Headers.empty } none 0, .arrive order none 1,
    .reply 1 (.error "down") 2]

theorem eventsOf_orderedInVain :
    ((start (World.start Breaker.BreakerConfig.standard none)).run idempotentGuard
      orderedInVain).world.eventsOf 0
        = [.keyRefused 0]
      ∧ ((start (World.start Breaker.BreakerConfig.standard none)).run idempotentGuard
          orderedInVain).world.eventsOf 1
        = [.claimed 1 "k", .invoked 1, .returned 1 (.error "down"), .unclaimed 1 "k"] :=
  ⟨rfl, rfl⟩

/-- The order without a key is counted, once, and the one that fails is not. -/
theorem metrics_run_orderedInVain :
    let s₀ := start (World.start Breaker.BreakerConfig.standard none)
    (∃ label, ∀ other,
        countedBy idempotentGuard 0 (.idempotencyEvents other) s₀ orderedInVain
          = if other = label then 1 else 0)
      ∧ lossesOf idempotentGuard 1 s₀ orderedInVain = [.failed]
      ∧ ∀ label, countedBy idempotentGuard 1 (.idempotencyEvents label) s₀ orderedInVain = 0 := by
  intro s₀
  let t := s₀.run idempotentGuard orderedInVain
  obtain ⟨-, -, -, -, hvisits⟩ :=
    metrics_run idempotentGuard Breaker.BreakerConfig.standard none orderedInVain
  obtain ⟨hrefused, hfailed⟩ := eventsOf_orderedInVain
  have hkept : lossesOf idempotentGuard 0 s₀ orderedInVain = [] := rfl
  have hlost : lossesOf idempotentGuard 1 s₀ orderedInVain = [.failed] := rfl
  obtain ⟨hcounted, -⟩ := hvisits 0 ((t.visits[0]?).get rfl) rfl (by decide) (by decide) fun name =>
    not_mem_answeredOpen (by rw [hrefused]; simp)
  obtain ⟨-, huncounted⟩ :=
    hvisits 1 ((t.visits[1]?).get rfl) rfl (by decide) (by decide) fun name =>
      not_mem_answeredOpen (by rw [hfailed]; simp)
  obtain ⟨label, -, honce⟩ := hcounted hkept
  exact ⟨⟨label, honce⟩, hlost, huncounted (hlost ▸ List.cons_ne_nil _ _)⟩

end Gates
end Gatehouse.Pipeline
