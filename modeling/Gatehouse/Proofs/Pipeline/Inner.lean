/-
The service behind the breaker gate.

Without its outermost layer a guard is the guard of the inner service. Permissions decide whether a
request reaches that service, and nothing else: gates that differ only in the permissions of their
visits, with the breaker layer and without it, do the same in every step but one, the arrival of a
request that is denied. What a client is answered is therefore what the inner service answers.

Two worlds are alike if their ledgers are the same, two visits if they are the same up to the
permission. The steps of a visit are compared one by one; where a permission is settled or handed
back, it has been shown that neither the ledger nor the rest of the visit sees it
(`Visit.settle_eq`, `Visit.handBack_eq`).
-/
import Gatehouse.Proofs.Pipeline.Moves

set_option autoImplicit false

namespace Gatehouse.Pipeline

open Gatehouse.Http Gatehouse.Idempotency Gatehouse.Routing Gatehouse.Traffic

/-- **The guard of the inner service:** all layers but the breaker gate. -/
def Guard.inner (g : Guard) : Guard := { g with layers := { g.layers with breaker := false } }

namespace World

section

variable {w other : World}

/-- What is noted in two worlds with the same ledger leaves them so, a permission included: no
ledger shows it. -/
theorem ledger_note_congr (h : w.ledger = other.ledger) (e : Event) :
    (w.note e).ledger = (other.note e).ledger := by
  cases hpermission : e.isPermission with
  | true => rw [ledger_note_permission w hpermission, ledger_note_permission other hpermission, h]
  | false => rw [ledger_note w hpermission, ledger_note other hpermission, h]

/-- The store is part of the ledger. -/
theorem store_eq_of_ledger (h : w.ledger = other.ledger) : w.store = other.store :=
  congrArg Ledger.store h

theorem ledger_withStore_congr (h : w.ledger = other.ledger) (store : Store) :
    ({ w with store } : World).ledger = ({ other with store } : World).ledger :=
  congrArg (fun x : Ledger => { x with store }) h

end

end World

namespace Visit

/-- A visit with another permission, or with none. -/
def holding (v : Visit) (permit : Option String) : Visit := { v with permit }

@[simp] theorem place_holding (v : Visit) (permit : Option String) :
    (v.holding permit).place = v.place := rfl

@[simp] theorem claim_holding (v : Visit) (permit : Option String) :
    (v.holding permit).claim = v.claim := rfl

/-- A visit without its permission. -/
def bare (v : Visit) : Visit := v.holding none

/-- Two worlds with a visit each are alike. -/
structure Alike (p q : World × Visit) : Prop where
  ledger : p.1.ledger = q.1.ledger
  visit : p.2.bare = q.2.bare

/-- Visits that are the same up to the permission can be told apart by the permission alone. -/
theorem eq_holding_of_bare_eq {v u : Visit} (h : v.bare = u.bare) : u = v.holding u.permit :=
  congrArg (·.holding u.permit) h.symm

section

variable {w other : World} (g : Guard) (v : Visit) (permit : Option String) (now : Nat)

/-- **An answer** settles the permission, which the inner service does not have, and nobody sees the
difference. -/
theorem alike_answer (hw : w.ledger = other.ledger) (status : Status) (headers : Headers)
    (passage : Passage) :
    Alike (v.answer g w status headers passage now)
      ((v.holding permit).answer g.inner other status headers passage now) := by
  obtain ⟨hledger, hvisit⟩ := answer_eq g now w v status headers passage
  obtain ⟨hinner, hsame⟩ := answer_eq g.inner now other (v.holding permit) status headers passage
  refine ⟨?_, ?_⟩
  · rw [hledger, hinner, hw]
  · rw [hvisit, hsame]
    rfl

/-- A rejection is noted and answered alike. -/
theorem alike_reject (hw : w.ledger = other.ledger) (key : String) :
    Alike (v.reject g w key now) ((v.holding permit).reject g.inner other key now) := by
  refine alike_answer g v permit now ?_ _ _ _
  exact World.ledger_note_congr hw _

theorem alike_execute (hw : w.ledger = other.ledger) :
    Alike (v.execute g w now) ((v.holding permit).execute g.inner other now) :=
  ⟨World.ledger_note_congr hw _, rfl⟩

/-- The store gives the same answer to a claim on the key, so both visits wait, have a record, or
execute. -/
theorem alike_claimKey (hw : w.ledger = other.ledger) (key : String) :
    Alike (v.claimKey g w key now) ((v.holding permit).claimKey g.inner other key now) := by
  unfold claimKey
  rw [World.store_eq_of_ledger hw]
  rcases other.store.claim key now with ⟨result, store⟩
  have hstore := World.ledger_withStore_congr hw store
  cases result with
  | replay record =>
    refine alike_answer g v permit now ?_ _ _ _
    exact World.ledger_note_congr hstore _
  | pending handle =>
    have hpolicy : g.inner.inFlight = g.inFlight := rfl
    dsimp only
    rw [hpolicy]
    cases g.inFlight with
    | reject => exact alike_reject g v permit now hstore key
    | wait => exact ⟨hstore, rfl⟩
  | acquired =>
    exact alike_execute g { v with claim := some key } permit now (World.ledger_note_congr hstore _)

/-- The idempotency gate does not ask for the permission. -/
theorem alike_enter (hw : w.ledger = other.ledger) :
    Alike (v.enter g w now) ((v.holding permit).enter g.inner other now) := by
  have hneeds : g.inner.needsKey (v.holding permit).policy = g.needsKey v.policy := rfl
  have hkey : key? g.inner (v.holding permit).request = key? g v.request := rfl
  unfold enter
  dsimp only
  rw [hneeds, hkey]
  cases g.needsKey v.policy with
  | false => exact alike_execute g v permit now hw
  | true =>
    cases key? g v.request with
    | ok key => exact alike_claimKey g v permit now hw key
    | error refusal =>
      refine alike_answer g v permit now ?_ _ _ _
      exact World.ledger_note_congr hw _

/-- A visit that has waited finds the same ending of the claim that it waits for. -/
theorem alike_resume (hw : w.ledger = other.ledger) (timedOut : Bool) :
    Alike (v.resume g w timedOut now) ((v.holding permit).resume g.inner other timedOut now) := by
  unfold resume
  rw [place_holding]
  cases hplace : v.place with
  | waiting key handle =>
    dsimp only
    rw [World.store_eq_of_ledger hw]
    rcases other.store.ending? handle with _ | ⟨record⟩ | _
    · cases timedOut with
      | true => exact alike_reject g v permit now hw key
      | false => exact ⟨hw, rfl⟩
    · refine alike_answer g v permit now ?_ _ _ _
      exact World.ledger_note_congr hw _
    · exact alike_claimKey g v permit now hw key
  | _ => exact ⟨hw, rfl⟩

theorem alike_readRequest (hw : w.ledger = other.ledger) :
    Alike (w, v.readRequest.2) (other, (v.holding permit).readRequest.2) := by
  unfold readRequest
  rw [place_holding]
  cases hplace : v.place with
  | executing passage => exact ⟨hw, rfl⟩
  | _ => exact ⟨hw, rfl⟩

/-- The handler's response takes both visits to the same place. -/
theorem alike_reply (hw : w.ledger = other.ledger) (result : Except String Response) :
    Alike (v.reply g w result now) ((v.holding permit).reply g.inner other result now) := by
  unfold reply
  rw [place_holding]
  cases hplace : v.place with
  | executing passage =>
    cases result with
    | error error =>
      let noted := (w.note (.returned v.id (.error error))).emit (passage.failed g.recorder error)
      let notedOther :=
        (other.note (.returned v.id (.error error))).emit (passage.failed g.recorder error)
      have hnoted : noted.ledger = notedOther.ledger := World.ledger_note_congr hw _
      obtain ⟨hledger, hvisit⟩ := unclaim_settle_eq now noted v true
      obtain ⟨hinner, hsame⟩ := unclaim_settle_eq now notedOther (v.holding permit) true
      refine ⟨?_, ?_⟩
      · exact hledger.trans ((congrArg (·.giveUp v.id v.claim) hnoted).trans hinner.symm)
      · have hbare := congrArg (fun u : Visit => ({ u with place := .failed error } : Visit).bare)
          (hvisit.trans hsame.symm)
        exact hbare
    | ok response =>
      have hnoted :=
        World.ledger_note_congr hw (.returned v.id (.ok (response.status, response.headers)))
      dsimp only
      rw [claim_holding]
      cases hclaim : v.claim with
      | none => exact alike_answer g v permit now hnoted _ _ _
      | some key => exact ⟨hnoted, rfl⟩
  | _ => exact ⟨hw, rfl⟩

/-- What is read of a response that is to be stored is the same, and so is the record in the end. -/
theorem alike_absorb (hw : w.ledger = other.ledger) :
    Alike (v.absorb g w now) ((v.holding permit).absorb g.inner other now) := by
  have hrecorder : g.inner.recorder = g.recorder := rfl
  unfold absorb
  rw [place_holding]
  cases hplace : v.place with
  | storing key status headers passage reading =>
    dsimp only
    rw [hrecorder]
    rcases passage.pollResponse g.recorder now with ⟨result, emission, next⟩
    have hemitted : (w.emit emission).ledger = (other.emit emission).ledger := hw
    cases result with
    | failure error =>
      let told := (w.emit emission).tell (.captureFailed key (Refusal.captureFailed error).message)
      let toldOther :=
        (other.emit emission).tell (.captureFailed key (Refusal.captureFailed error).message)
      obtain ⟨hledger, hvisit⟩ := unclaim_eq told v
      obtain ⟨hinner, hsame⟩ := unclaim_eq toldOther (v.holding permit)
      have htold : (v.unclaim told).1.ledger = ((v.holding permit).unclaim toldOther).1.ledger := by
        rw [hledger, hinner]
        exact congrArg (·.giveUp v.id v.claim) hemitted
      change Alike ((v.unclaim told).2.answer g (v.unclaim told).1 _ _ _ now)
        (((v.holding permit).unclaim toldOther).2.answer g.inner
          ((v.holding permit).unclaim toldOther).1 _ _ _ now)
      rw [hvisit, hsame]
      exact alike_answer g { v with claim := none } permit now htold _ _ _
    | ended =>
      let record := Record.ofResponse key { status, headers, body := (reading.add .ended).data }
      have hstored : ((w.emit emission).storeRecord v.id record now).ledger
          = ((other.emit emission).storeRecord v.id record now).ledger := by
        rw [World.ledger_storeRecord, World.ledger_storeRecord, hemitted]
      exact alike_answer g { v with
        claim := none, place := .storing key status headers passage reading } permit
        now hstored _ _ _
    | frame frame => exact ⟨hemitted, rfl⟩
    | pending => exact ⟨hemitted, rfl⟩
  | _ => exact ⟨hw, rfl⟩

theorem alike_deliver (hw : w.ledger = other.ledger) :
    Alike (v.deliver g w now).2 ((v.holding permit).deliver g.inner other now).2 := by
  unfold deliver
  rw [place_holding]
  cases hplace : v.place with
  | answered status headers passage => exact ⟨hw, rfl⟩
  | _ => exact ⟨hw, rfl⟩

/-- A visit that is dropped hands its permission back, and gives up the same claim. -/
theorem alike_leave (hw : w.ledger = other.ledger) :
    Alike (v.leave g w now) ((v.holding permit).leave g.inner other now) := by
  let emitted := w.emit (v.droppedEmission g now)
  let emittedOther := other.emit (v.droppedEmission g now)
  obtain ⟨hledger, hvisit⟩ := unclaim_handBack_eq now emitted v
  obtain ⟨hinner, hsame⟩ := unclaim_handBack_eq now emittedOther (v.holding permit)
  refine ⟨?_, ?_⟩
  · exact hledger.trans ((congrArg (·.giveUp v.id v.claim) hw).trans hinner.symm)
  · exact congrArg (fun u : Visit => ({ u with place := .gone } : Visit).bare)
      (hvisit.trans hsame.symm)

end

end Visit

namespace Gates

/-- **An action is denied:** it is the arrival of a request that needs a permission, and its
breaker gives none. -/
def Denies (g : Guard) (s : Gates) : Action → Prop
  | .arrive request preset now =>
    g.needsPermission (g.policyFor preset request) = true
      ∧ (s.world.registry.perform (g.policyFor preset request).breakerName now .acquire).1 = false
  | _ => False

/-- **Two gates are alike:** their ledgers are the same, and so are their visits up to
the permissions. -/
structure Alike (s t : Gates) : Prop where
  ledger : s.world.ledger = t.world.ledger
  visits : s.visits.map Visit.bare = t.visits.map Visit.bare

section

variable {g : Guard} {s t : Gates}

theorem Alike.length (h : s.Alike t) : s.visits.length = t.visits.length := by
  have hlength := congrArg List.length h.visits
  rwa [List.length_map, List.length_map] at hlength

/-- **A step of one visit** keeps all gates alike, if it keeps its two worlds and visits alike. -/
theorem Alike.onVisit (h : s.Alike t) (i : Nat) (f k : World → Visit → World × Visit)
    (halike : ∀ v permit, Visit.Alike (f s.world v) (k t.world (v.holding permit))) :
    (s.onVisit i f).Alike (t.onVisit i k) := by
  have hboth : (s.visits[i]?).map Visit.bare = (t.visits[i]?).map Visit.bare := by
    rw [← List.getElem?_map, ← List.getElem?_map, h.visits]
  unfold Gates.onVisit
  cases hv : s.visits[i]? with
  | none =>
    rw [hv] at hboth
    rw [Option.map_eq_none_iff.1 hboth.symm]
    exact h
  | some v =>
    rw [hv] at hboth
    obtain ⟨u, hu, hbare⟩ := Option.map_eq_some_iff.1 hboth.symm
    rw [hu]
    -- the other visit is the same one with another permission
    have hsame := halike v u.permit
    rw [← Visit.eq_holding_of_bare_eq hbare.symm] at hsame
    refine ⟨hsame.ledger, ?_⟩
    dsimp only
    rw [List.map_set, List.map_set, h.visits, hsame.visit]

/-- **An admitted request** comes to the inner service as it would without the breaker gate. -/
theorem Alike.arrive (h : s.Alike t) (request : Request) (preset : Option RoutePolicy) (now : Nat)
    (hadmitted : ¬Denies g s (.arrive request preset now)) :
    Visit.Alike (Visit.arrive g s.world s.visits.length request preset now)
      (Visit.arrive g.inner t.world t.visits.length request preset now) := by
  have hinner : g.inner.needsPermission (g.policyFor preset request) = false := rfl
  have hpolicy : g.inner.policyFor preset request = g.policyFor preset request := rfl
  unfold Visit.arrive
  dsimp only
  rw [hpolicy, hinner, ← h.length]
  by_cases hneeds : g.needsPermission (g.policyFor preset request) = true
  · rw [if_pos hneeds]
    have hgranted : (s.world.breaker (g.policyFor preset request).breakerName now .acquire).1
        = true := by
      by_contra hnot
      exact hadmitted ⟨hneeds, Bool.not_eq_true _ ▸ hnot⟩
    rw [if_pos hgranted]
    refine Visit.alike_enter g _ none now ?_
    rw [World.ledger_note_permission _ rfl, World.ledger_breaker, h.ledger]
  · rw [if_neg hneeds]
    exact Visit.alike_enter g _ none now h.ledger

/-- A visit that comes stands behind all others. -/
theorem visits_step_arrive (g : Guard) (s : Gates) (request : Request) (preset : Option RoutePolicy)
    (now : Nat) : (s.step g (.arrive request preset now)).visits
      = s.visits ++ [(Visit.arrive g s.world s.visits.length request preset now).2] := rfl

/-- **A step is a step of the inner service,** unless it is the arrival of a request
that is denied. -/
theorem Alike.step (h : s.Alike t) (a : Action) (hadmitted : ¬Denies g s a) :
    (s.step g a).Alike (t.step g.inner a) := by
  cases a with
  | arrive request preset now =>
    have harrived := h.arrive request preset now hadmitted
    refine ⟨harrived.ledger, ?_⟩
    rw [visits_step_arrive, visits_step_arrive, List.map_append, List.map_append, h.visits,
      List.map_singleton, List.map_singleton, harrived.visit]
  | resume i timedOut now =>
    exact h.onVisit i (fun w v => v.resume g w timedOut now)
      (fun w v => v.resume g.inner w timedOut now)
      fun v permit => Visit.alike_resume g v permit now h.ledger timedOut
  | readRequest i =>
    exact h.onVisit i (fun w v => (w, v.readRequest.2)) (fun w v => (w, v.readRequest.2))
      fun v permit => Visit.alike_readRequest v permit h.ledger
  | reply i result now =>
    exact h.onVisit i (fun w v => v.reply g w result now) (fun w v => v.reply g.inner w result now)
      fun v permit => Visit.alike_reply g v permit now h.ledger result
  | absorb i now =>
    exact h.onVisit i (fun w v => v.absorb g w now) (fun w v => v.absorb g.inner w now)
      fun v permit => Visit.alike_absorb g v permit now h.ledger
  | deliver i now =>
    exact h.onVisit i (fun w v => (v.deliver g w now).2) (fun w v => (v.deliver g.inner w now).2)
      fun v permit => Visit.alike_deliver g v permit now h.ledger
  | leave i now =>
    exact h.onVisit i (fun w v => v.leave g w now) (fun w v => v.leave g.inner w now)
      fun v permit => Visit.alike_leave g v permit now h.ledger
  | purge now =>
    exact ⟨congrArg (·.purge now) h.ledger, h.visits⟩

end

end Gates
end Gatehouse.Pipeline
