/-
One visit through a run.

What is known of a visit at the end of a run is mostly shown by induction on the run, with the same
three cases: the visit comes, it acts, or the step is about another one. `visit_run` is that
induction. With it are the facts that every use of it needs: what the client has been given so far,
which events are those of the visit, and where its handler stands. A visit that is over stays so,
and a handler answers at most once (`Gave.once`).
-/
import Gatehouse.Proofs.Pipeline.ExactlyOnce
import Gatehouse.Proofs.Pipeline.Unguarded

set_option autoImplicit false

namespace Gatehouse.Pipeline

open Gatehouse.Http Gatehouse.Idempotency Gatehouse.Routing Gatehouse.Traffic

/-- The handler has returned. -/
def Place.Replied : Place → Prop
  | .waiting _ _ => False
  | .executing _ => False
  | _ => True

namespace Visit

section

variable {g : Guard} {now : Nat} {v : Visit} {place : Place} {events : List Event}
  {records : List TrafficRecord}

theorem polledIn_of_underWay (h : v.place.UnderWay) (w : World) (a : Action) :
    v.polledIn g w a = [] := by
  unfold polledIn
  cases a with
  | deliver i now =>
    cases hplace : v.place with
    | answered status headers passage =>
      rw [hplace] at h
      exact h.elim
    | _ => rfl
  | _ => rfl

/-- A visit that is over stays so. -/
theorem Deed.over (h : Deed g now v events records place) (hover : ¬v.place.UnderWay) :
    ¬place.UnderWay := by
  have hcontra : ∀ {other : Place}, v.place = other → other.UnderWay → ¬place.UnderWay := by
    intro other heq hunder
    exact absurd (heq ▸ hunder) hover
  cases h with
  | stays => exact hover
  | passes key handle events place hplace => exact hcontra hplace trivial
  | reads passage hplace => exact hcontra hplace trivial
  | captures key passage response hplace => exact hcontra hplace trivial
  | absorbs key status headers passage reading next hplace => exact hcontra hplace trivial
  | _ => exact not_false

/-- Nothing becomes of a visit that is gone. -/
theorem Deed.gone (h : Deed g now v events records place) (hgone : v.place = .gone) :
    place = .gone := by
  cases h with
  | stays => exact hgone
  | leaves => rfl
  | passes key handle events place hplace => cases hgone.symm.trans hplace
  | reads passage hplace => cases hgone.symm.trans hplace
  | fails passage error hplace => cases hgone.symm.trans hplace
  | answers passage response hplace => cases hgone.symm.trans hplace
  | captures key passage response hplace => cases hgone.symm.trans hplace
  | absorbs key status headers passage reading next hplace => cases hgone.symm.trans hplace
  | captureFails key status headers passage reading error answerHeaders body hplace =>
    cases hgone.symm.trans hplace
  | stores key status headers passage reading record hplace => cases hgone.symm.trans hplace
  | delivers status headers passage hplace => cases hgone.symm.trans hplace

/-- The handler of a visit that has replied is not called again. -/
theorem Deed.replied (h : Deed g now v events records place) (hreplied : v.place.Replied) :
    place.Replied := by
  have hcontra : ∀ {other : Place}, v.place = other → ¬other.Replied → place.Replied := by
    intro other heq hnot
    exact absurd (heq ▸ hreplied) hnot
  cases h with
  | stays => exact hreplied
  | passes key handle events place hplace => exact hcontra hplace not_false
  | reads passage hplace => exact hcontra hplace not_false
  | _ => trivial

/-- What the handler of a visit replies is its reply from then on. -/
theorem replied_reply {passage : Passage} (hplace : v.place = .executing passage) (w : World)
    (result : Except String Response) (now : Nat) : (v.reply g w result now).2.place.Replied := by
  rw [reply, hplace]
  cases result with
  | error error => trivial
  | ok response => cases v.claim <;> trivial
end

end Visit

namespace Gates

/-! ## One visit through a run -/

/-- The gates before the first request. -/
abbrev initial (config : Breaker.BreakerConfig) (ttlMs : Option Nat) : Gates :=
  start (World.start config ttlMs)

section

variable {g : Guard} {config : Breaker.BreakerConfig} {ttlMs : Option Nat} {i : Nat}

/-- **A visit through a run:** it comes, it acts, and others do. -/
theorem visit_run {motive : List Action → Visit → Prop}
    (arrives : ∀ actions request preset now u,
      i = ((initial config ttlMs).run g actions).visits.length →
      Visit.arrive g ((initial config ttlMs).run g actions).world i request preset now
        = (((initial config ttlMs).run g (actions ++ [.arrive request preset now])).world, u) →
      motive (actions ++ [.arrive request preset now]) u)
    (acts : ∀ actions a v u, ((initial config ttlMs).run g actions).visits[i]? = some v →
      a.visit? = some i →
      v.act g ((initial config ttlMs).run g actions).world a
        = (((initial config ttlMs).run g (actions ++ [a])).world, u) →
      motive actions v → motive (actions ++ [a]) u)
    (others : ∀ actions a v, ((initial config ttlMs).run g actions).visits[i]? = some v →
      ((initial config ttlMs).run g actions).actor? a ≠ some i → motive actions v →
        motive (actions ++ [a]) v)
    (actions : List Action) {u : Visit}
    (hu : ((initial config ttlMs).run g actions).visits[i]? = some u) :
    motive actions u := by
  induction actions using List.reverseRecOn generalizing u with
  | nil => exact (not_getElem?_nil hu).elim
  | append_singleton actions a ih =>
    simp only [run_concat] at hu arrives acts
    by_cases hactor : ((initial config ttlMs).run g actions).actor? a = some i
    · cases about_step hactor hu with
      | arrives request preset now ha hnext hafter =>
        subst ha
        exact arrives actions request preset now u hnext hafter
      | acts v hv ha hafter => exact acts actions a v u hv ha hafter (ih hv)
    · have hold := getElem?_of_step_of_ne hu hactor
      exact others actions a u hold hactor (ih hold)

theorem gaveBack_run (actions : List Action) :
    ∀ v ∈ ((initial config ttlMs).run g actions).visits, v.GaveBack :=
  (accounted_run g config ttlMs actions).gaveBack (owned_run g config ttlMs actions)

/-- A visit that acts does a deed. -/
theorem does_of_act {actions : List Action} {v u : Visit} {a : Action} {after : World}
    (hv : ((initial config ttlMs).run g actions).visits[i]? = some v)
    (hafter : v.act g ((initial config ttlMs).run g actions).world a = (after, u)) :
    ∃ now, Visit.Does g now ((initial config ttlMs).run g actions).world v after u := by
  obtain ⟨now, hdoes⟩ := Visit.does_act ((initial config ttlMs).run g actions).world
    (gaveBack_run actions v (List.mem_of_getElem? hv)) a
  rw [hafter] at hdoes
  exact ⟨now, hdoes⟩

theorem deliveredTo_act {actions : List Action} {v : Visit} {a : Action}
    (hv : ((initial config ttlMs).run g actions).visits[i]? = some v) (ha : a.visit? = some i) :
    deliveredTo g i (initial config ttlMs) (actions ++ [a])
      = deliveredTo g i (initial config ttlMs) actions
        ++ v.polledIn g ((initial config ttlMs).run g actions).world a := by
  rw [deliveredTo_concat, contributed_of_getElem? hv ha]

theorem deliveredTo_of_ne {actions : List Action} {a : Action}
    (hactor : ((initial config ttlMs).run g actions).actor? a ≠ some i) :
    deliveredTo g i (initial config ttlMs) (actions ++ [a])
      = deliveredTo g i (initial config ttlMs) actions := by
  rw [deliveredTo_concat, contributed_of_ne fun ha => hactor (actor?_of_visit? ha), List.append_nil]

/-- A visit that comes has been given nothing. -/
theorem deliveredTo_arrive {actions : List Action}
    (hnext : i = ((initial config ttlMs).run g actions).visits.length) (request : Request)
    (preset : Option RoutePolicy) (now : Nat) :
    deliveredTo g i (initial config ttlMs) (actions ++ [.arrive request preset now]) = [] := by
  rw [deliveredTo_concat,
    contributed_of_ne (a := .arrive request preset now) (Option.some_ne_none _).symm]
  rw [List.append_nil]
  exact gathered_of_length_le g _ (initial config ttlMs) actions (Nat.le_of_eq hnext.symm)

/-- **A client is given nothing before its answer.** -/
theorem deliveredTo_of_underWay (actions : List Action) {u : Visit}
    (hu : ((initial config ttlMs).run g actions).visits[i]? = some u) (hplace : u.place.UnderWay) :
    deliveredTo g i (initial config ttlMs) actions = [] := by
  revert hplace
  refine visit_run (motive := fun actions u => u.place.UnderWay →
    deliveredTo g i (initial config ttlMs) actions = []) ?_ ?_ ?_ actions hu
  · intro actions request preset now u hnext hafter hplace
    exact deliveredTo_arrive hnext request preset now
  · intro actions a v u hv ha hafter ih hplace
    obtain ⟨now, events, records, -, -, hdeed, -⟩ := does_of_act hv hafter
    have hbefore : v.place.UnderWay := by
      by_contra hover
      exact hdeed.over hover hplace
    rw [deliveredTo_act hv ha, ih hbefore, Visit.polledIn_of_underWay hbefore]
    rfl
  · intro actions a v hv hactor ih hplace
    rw [deliveredTo_of_ne hactor]
    exact ih hplace
/-- What is noted of a visit is noted by a step about it. -/
theorem mem_history_of_others {actions : List Action} {a : Action} {e : Event}
    (hactor : ((initial config ttlMs).run g actions).actor? a ≠ some e.visit)
    (he : e ∈ ((initial config ttlMs).run g (actions ++ [a])).world.history) :
    e ∈ ((initial config ttlMs).run g actions).world.history := by
  rw [run_concat] at he
  obtain ⟨events, records, hgrows, hvisit⟩ := grows_step (g := g) (owned_run g config ttlMs actions)
    (gaveBack_run actions) a
  rw [hgrows.history] at he
  rcases List.mem_append.1 he with hold | hnew
  · exact hold
  · exact absurd (hvisit e hnew) hactor

/-- A visit that comes finds none of its events. -/
theorem visit_ne_of_mem_history {actions : List Action} {e : Event}
    (he : e ∈ ((initial config ttlMs).run g actions).world.history) :
    e.visit ≠ ((initial config ttlMs).run g actions).visits.length := by
  intro hvisit
  obtain ⟨-, hnothing⟩ := (accounted_run g config ttlMs actions).unborn _ (Nat.le_of_eq hvisit.symm)
  have hmem := (World.mem_eventsOf_iff (i := e.visit) rfl).2 he
  rw [hnothing] at hmem
  exact absurd hmem List.not_mem_nil
/-! ## The response of the handler -/

theorem Gave.of_concat {s : Gates} {actions : List Action} {a : Action} {response : Response}
    (h : Gave g s (actions ++ [a]) i response) :
    Gave g s actions i response
      ∨ ∃ now v passage, a = .reply i (.ok response) now ∧ (s.run g actions).visits[i]? = some v
        ∧ v.place = .executing passage := by
  obtain ⟨before, now, after, v, passage, hactions, hv, hplace⟩ := h
  rcases List.eq_nil_or_concat after with rfl | ⟨more, last, rfl⟩
  · obtain ⟨rfl, ha⟩ := List.append_inj' hactions rfl
    exact .inr ⟨now, v, passage, List.singleton_inj.1 ha, hv, hplace⟩
  · rw [List.concat_eq_append, ← List.cons_append, ← List.append_assoc] at hactions
    obtain ⟨rfl, -⟩ := List.append_inj' hactions rfl
    exact .inl ⟨before, now, more, v, passage, rfl, hv, hplace⟩

/-- A visit whose handler has answered is there. -/
theorem Gave.lt_length {s : Gates} {actions : List Action} {response : Response}
    (h : Gave g s actions i response) : i < (s.run g actions).visits.length := by
  induction actions using List.reverseRecOn with
  | nil =>
    obtain ⟨before, now, after, v, passage, hactions, -⟩ := h
    simp at hactions
  | append_singleton actions a ih =>
    rw [run_concat]
    refine Nat.lt_of_lt_of_le ?_ (length_le_step g _ a)
    rcases h.of_concat with hold | ⟨now, v, passage, -, hv, -⟩
    · exact ih hold
    · exact (List.getElem?_eq_some_iff.1 hv).1

/-- A handler answers at most once, and is not called again. -/
theorem Gave.once (actions : List Action) {u : Visit}
    (hu : ((initial config ttlMs).run g actions).visits[i]? = some u) (response : Response)
    (h : Gave g (initial config ttlMs) actions i response) :
    u.place.Replied ∧ ∀ other, Gave g (initial config ttlMs) actions i other →
      other = response := by
  revert response
  refine visit_run
    (motive := fun actions u => ∀ response, Gave g (initial config ttlMs) actions i response →
      u.place.Replied ∧ ∀ other, Gave g (initial config ttlMs) actions i other → other = response)
    ?_ ?_ ?_ actions hu
  · intro actions request preset now u hnext hafter response hgave
    rcases hgave.of_concat with hold | ⟨later, v, passage, ha, -⟩
    · exact absurd hold.lt_length (Nat.not_lt.2 (Nat.le_of_eq hnext.symm))
    · cases ha
  · intro actions a v u hv ha hafter ih response hgave
    obtain ⟨now, events, records, -, -, hdeed, -⟩ := does_of_act hv hafter
    rcases hgave.of_concat with hold | ⟨later, w, passage, hreply, hw, hplace⟩
    · obtain ⟨hreplied, honly⟩ := ih response hold
      refine ⟨hdeed.replied hreplied, fun other hother => ?_⟩
      rcases hother.of_concat with hagain | ⟨again, w, passage, -, hw, hplace⟩
      · exact honly other hagain
      · -- whose handler has replied is not at the handler any more
        cases hv.symm.trans hw
        rw [hplace] at hreplied
        exact hreplied.elim
    · cases hv.symm.trans hw
      subst hreply
      have hreplied :=
        Visit.replied_reply (g := g) hplace ((initial config ttlMs).run g actions).world
          (.ok response) later
      rw [show v.reply g _ (.ok response) later = _ from hafter] at hreplied
      refine ⟨hreplied, fun other hother => ?_⟩
      rcases hother.of_concat with hagain | ⟨again, w, passage, hsame, -⟩
      · have hbefore := (ih other hagain).1
        rw [hplace] at hbefore
        exact hbefore.elim
      · cases hsame
        rfl
  · intro actions a v hv hactor ih response hgave
    have hback : ∀ other, Gave g (initial config ttlMs) (actions ++ [a]) i other →
        Gave g (initial config ttlMs) actions i other := by
      intro other hother
      rcases hother.of_concat with hold | ⟨later, w, passage, rfl, -⟩
      · exact hold
      · exact absurd rfl hactor
    obtain ⟨hreplied, honly⟩ := ih response (hback response hgave)
    exact ⟨hreplied, fun other hother => honly other (hback other hother)⟩
end

end Gates
end Gatehouse.Pipeline
