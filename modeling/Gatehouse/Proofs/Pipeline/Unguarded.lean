/-
Visits that the gates let through.

A visit whose policy needs no permission never holds one, and without a permission none of its steps
looks at a breaker: with any other breakers in their place the same would have happened, and they
would still be as they were (`step_withRegistry`). A visit that needs neither a permission nor a key
is with its handler at once, and its client has what the handler returns: the failure, or the
status, the headers and, poll by poll, the body (`handsOn_run`). What the client has been given is
read off the run (`deliveredTo`), and so is what the handler has returned (`Returned`).
-/
import Gatehouse.Proofs.Pipeline.Actors

set_option autoImplicit false

namespace Gatehouse

open Gatehouse.Http Gatehouse.Idempotency Gatehouse.Routing Gatehouse.Traffic

/-- What the first so many polls of a body yield, and the body after them. -/
def Http.Body.pollTimes (b : Body) : Nat → List Poll × Body
  | 0 => ([], b)
  | n + 1 =>
    let (polls, rest) := b.pollTimes n
    (polls ++ [rest.poll.1], rest.poll.2)

namespace Pipeline

/-! ## Other breakers -/

/-- The same world with other breakers. -/
def World.withRegistry (w : World) (registry : Breaker.Registry) : World := { w with registry }

namespace Visit

/-- **Blind to the breakers:** a step of a visit does the same whatever they are, and leaves
them as they are. -/
def Blind (step : World → World × Visit) : Prop :=
  ∀ w registry, step (w.withRegistry registry) = ((step w).1.withRegistry registry, (step w).2)

section

variable {g : Guard} {v : Visit} (now : Nat)

/-- Without a permission nothing is settled. -/
theorem settle_of_none (w : World) (hpermit : v.permit = none) (failed : Bool) :
    v.settle w failed now = (w, v) := by
  rw [settle, hpermit]

/-- A visit without a permission has none to settle when it is answered. -/
theorem blind_answer (hpermit : v.permit = none) (status : Status) (headers : Headers)
    (passage : Passage) :
    Blind fun w => v.answer g w status headers passage now := by
  intro w registry
  simp only [answer, settle_of_none now _ hpermit]

theorem blind_reject (hpermit : v.permit = none) (key : String) :
    Blind fun w => v.reject g w key now := by
  intro w registry
  let noted :=
    ((w.tell (.keyInProgress key)).count (.idempotencyEvents .rejected)).note (.rejected v.id key)
  exact blind_answer now hpermit _ _ _ noted registry

theorem blind_claimKey (hpermit : v.permit = none) (key : String) :
    Blind fun w => v.claimKey g w key now := by
  intro w registry
  have hstore : (w.withRegistry registry).store = w.store := rfl
  unfold claimKey
  dsimp only
  rw [hstore]
  rcases w.store.claim key now with ⟨result, store⟩
  cases result with
  | replay record =>
    let noted :=
      ((({ w with store } : World).tell (.replaying key)).count (.idempotencyEvents .replayed)).note
        (.replayed v.id record false)
    exact blind_answer now hpermit _ _ _ noted registry
  | pending handle =>
    cases g.inFlight with
    | reject => exact blind_reject now hpermit key { w with store } registry
    | wait => rfl
  | acquired => rfl

theorem blind_enter (hpermit : v.permit = none) : Blind fun w => v.enter g w now := by
  intro w registry
  unfold enter
  dsimp only
  cases g.needsKey v.policy with
  | false => rfl
  | true =>
    cases key? g v.request with
    | ok key => exact blind_claimKey now hpermit key w registry
    | error refusal =>
      let noted := ((w.tell (.keyRefused v.request.uri.path g.keyHeader.text refusal.message)).count
        (.idempotencyEvents (refusalEvent refusal))).note (.keyRefused v.id)
      exact blind_answer now hpermit _ _ _ noted registry

/-- **A visit that needs no permission** does not ask for one. -/
theorem blind_arrive (id : Nat) (request : Request) (preset : Option RoutePolicy)
    (hneeds : g.needsPermission (g.policyFor preset request) = false) :
    Blind fun w => arrive g w id request preset now := by
  intro w registry
  unfold arrive
  simp only [hneeds]
  exact blind_enter (v := ⟨id, request, now, g.policyFor preset request, none, none, .gone⟩) now
    rfl w registry

theorem blind_resume (hpermit : v.permit = none) (timedOut : Bool) :
    Blind fun w => v.resume g w timedOut now := by
  intro w registry
  unfold resume
  dsimp only
  cases v.place with
  | waiting key handle =>
    have hstore : (w.withRegistry registry).store = w.store := rfl
    dsimp only
    rw [hstore]
    rcases w.store.ending? handle with _ | ⟨record⟩ | _
    · cases timedOut with
      | true => exact blind_reject now hpermit key w registry
      | false => rfl
    · let noted := ((w.tell (.replayingAfterWait key)).count (.idempotencyEvents .waited)).note
        (.replayed v.id record true)
      exact blind_answer now hpermit _ _ _ noted registry
    · exact blind_claimKey now hpermit key w registry
  | _ => rfl

theorem blind_reply (hpermit : v.permit = none) (result : Except String Response) :
    Blind fun w => v.reply g w result now := by
  intro w registry
  unfold reply
  dsimp only
  cases v.place with
  | executing passage =>
    cases result with
    | error error =>
      -- the claim, if there is one, is given up, and there is no permission to settle
      cases hclaim : v.claim with
      | none => simp only [unclaim, settle, hclaim, hpermit]; rfl
      | some key => simp only [unclaim, settle, hclaim, hpermit]; rfl
    | ok response =>
      cases v.claim with
      | none =>
        exact blind_answer now hpermit _ _ _
          (w.note (.returned v.id (.ok (response.status, response.headers))))
          registry
      | some key => rfl
  | _ => rfl

theorem blind_absorb (hpermit : v.permit = none) : Blind fun w => v.absorb g w now := by
  intro w registry
  unfold absorb
  dsimp only
  cases v.place with
  | storing key status headers passage reading =>
    dsimp only
    rcases passage.pollResponse g.recorder now with ⟨result, emission, next⟩
    cases result with
    | failure error =>
      cases hclaim : v.claim with
      | none => simp only [unclaim, answerResponse, answer, settle, hclaim, hpermit]; rfl
      | some key => simp only [unclaim, answerResponse, answer, settle, hclaim, hpermit]; rfl
    | ended =>
      let stored := (w.emit emission).storeRecord v.id
        (Record.ofResponse key { status, headers, body := (reading.add .ended).data }) now
      exact blind_answer
        (v := { v with claim := none, place := .storing key status headers passage reading }) now
        hpermit _ _ _ stored registry
    | frame frame => rfl
    | pending => rfl
  | _ => rfl

theorem blind_deliver : Blind fun w => (v.deliver g w now).2 := by
  intro w registry
  unfold deliver
  dsimp only
  cases v.place with
  | answered status headers passage => rfl
  | _ => rfl

theorem blind_leave (hpermit : v.permit = none) : Blind fun w => v.leave g w now := by
  intro w registry
  cases hclaim : v.claim with
  | none => simp only [leave, unclaim, handBack, hclaim, hpermit]; rfl
  | some key => simp only [leave, unclaim, handBack, hclaim, hpermit]; rfl

/-- **Without a permission** no action on a visit looks at a breaker. -/
theorem blind_act (hpermit : v.permit = none) (a : Action) : Blind fun w => v.act g w a := by
  cases a with
  | resume i timedOut now => exact blind_resume now hpermit timedOut
  | readRequest i => exact fun _ _ => rfl
  | reply i result now => exact blind_reply now hpermit result
  | absorb i now => exact blind_absorb now hpermit
  | deliver i now => exact blind_deliver now
  | leave i now => exact blind_leave now hpermit
  | arrive request preset now => exact fun _ _ => rfl
  | purge now => exact fun _ _ => rfl

end

/-! ## What the client has -/

/-- A visit that needs neither a permission nor a key. -/
def Exempt (g : Guard) (v : Visit) : Prop :=
  g.needsPermission v.policy = false ∧ g.needsKey v.policy = false

/-- An exempt visit is at its handler as it comes. -/
theorem arrive_of_exempt {g : Guard} {w : World} {id : Nat} {request : Request}
    {preset : Option RoutePolicy} {now : Nat}
    (hneeds : g.needsPermission (g.policyFor preset request) = false)
    (hkey : g.needsKey (g.policyFor preset request) = false) :
    arrive g w id request preset now
      = (w.note (.invoked id),
        { id, request, arrivedAt := now, policy := g.policyFor preset request,
          permit := none, claim := none
          place := .executing (Passage.start
            (if g.records request then some g.recorder else none) request now) }) := by
  simp only [arrive, enter, execute, hneeds, hkey]
  rfl

/-- **The client has what the handler returned,** where it has polled its response so often:
nothing as long as the handler is at work, then its failure, or its status, its headers and so
much of its body. -/
inductive HandsOn (returned : Except String Response → Prop) (polls : List Poll) :
    Place → Prop where
  | executing (passage : Passage) (hnothing : polls = []) :
      HandsOn returned polls (.executing passage)
  | failed (error : String) (hreturned : returned (.error error)) (hnothing : polls = []) :
    HandsOn returned polls (.failed error)
  | answered (response : Response) (passage : Passage) (rest : Body)
      (hreturned : returned (.ok response)) (hrest : passage.responseBody? = some rest)
      (hpolls : response.body.pollTimes polls.length = (polls, rest)) :
    HandsOn returned polls (.answered response.status response.headers passage)
  /-- It was dropped, and its client may have read some of the body before. -/
  | gone (hpolls : polls = [] ∨ ∃ response, returned (.ok response)
      ∧ (response.body.pollTimes polls.length).1 = polls) :
    HandsOn returned polls .gone

/-- What the client of a visit gets in an action: the result of its poll, if there is a response
that it can poll. -/
def polledIn (g : Guard) (w : World) (v : Visit) : Action → List Poll
  | .deliver _ now =>
    match v.place with
    | .answered _ _ _ => [(v.deliver g w now).1]
    | _ => []
  | _ => []

section

variable {g : Guard} {v : Visit} {returned more : Except String Response → Prop} {polls : List Poll}
  {place : Place} (now : Nat)

/-- What has been handed on of some results has been handed on of more. -/
theorem HandsOn.mono (h : HandsOn returned polls place)
    (hmore : ∀ result, returned result → more result) :
    HandsOn more polls place := by
  cases h with
  | executing passage hnothing => exact .executing passage hnothing
  | failed error hreturned hnothing => exact .failed error (hmore _ hreturned) hnothing
  | answered response passage rest hreturned hrest hpolls =>
    exact .answered response passage rest (hmore _ hreturned) hrest hpolls
  | gone hpolls =>
    refine .gone (hpolls.imp_right ?_)
    rintro ⟨response, hreturned, hread⟩
    exact ⟨response, hmore _ hreturned, hread⟩

theorem HandsOn.resume (h : HandsOn returned polls v.place) (w : World) (timedOut : Bool) :
    HandsOn returned polls (v.resume g w timedOut now).2.place := by
  unfold Visit.resume
  cases hplace : v.place with
  | waiting key handle =>
    rw [hplace] at h
    cases h
  | _ => exact h

theorem HandsOn.readRequest (h : HandsOn returned polls v.place) :
    HandsOn returned polls v.readRequest.2.place := by
  unfold Visit.readRequest
  cases hplace : v.place with
  | executing passage =>
    rw [hplace] at h
    cases h with
    | executing _ hnothing => exact .executing _ hnothing
  | _ => exact h

/-- A handler's response is handed on as it is, unless it is to be stored. -/
theorem HandsOn.reply (h : HandsOn returned polls v.place) (w : World) (hclaim : v.claim = none)
    {result : Except String Response}
    (hreturned : ∀ passage, v.place = .executing passage → returned result) :
    HandsOn returned polls (v.reply g w result now).2.place := by
  unfold Visit.reply
  cases hplace : v.place with
  | executing passage =>
    have hgiven := hreturned passage hplace
    rw [hplace] at h
    cases h with
    | executing _ hnothing =>
      cases result with
      | error error => exact .failed error hgiven hnothing
      | ok response =>
        dsimp only
        rw [hclaim, hnothing]
        exact .answered response _ response.body hgiven
          (Passage.responseBody?_respond g.recorder passage response) rfl
  | _ => exact h

theorem HandsOn.absorb (h : HandsOn returned polls v.place) (w : World) :
    HandsOn returned polls (v.absorb g w now).2.place := by
  unfold Visit.absorb
  cases hplace : v.place with
  | storing key status headers passage reading =>
    rw [hplace] at h
    cases h
  | _ => exact h

/-- What the client polls is the next poll of the handler's body. -/
theorem HandsOn.deliver (h : HandsOn returned polls v.place) (w : World) (i : Nat) :
    HandsOn returned (polls ++ v.polledIn g w (.deliver i now)) (v.deliver g w now).2.2.place := by
  unfold polledIn Visit.deliver
  cases hplace : v.place with
  | answered status headers passage =>
    rw [hplace] at h
    cases h with
    | answered response _ rest hreturned hrest hpolls =>
      obtain ⟨hpoll, hnext⟩ := Passage.pollResponse_of_body (r := g.recorder) hrest now
      refine .answered response _ rest.poll.2 hreturned hnext ?_
      rw [List.length_append, List.length_singleton, Body.pollTimes, hpolls]
      exact congrArg (fun poll => (polls ++ [poll], rest.poll.2)) hpoll.symm
  | _ =>
    rw [List.append_nil]
    exact h

theorem HandsOn.leave (h : HandsOn returned polls v.place) (w : World) :
    HandsOn returned polls (v.leave g w now).2.place := by
  have hgone : (v.leave g w now).2.place = .gone := rfl
  rw [hgone]
  refine .gone ?_
  generalize v.place = place at h
  cases h with
  | executing passage hnothing => exact .inl hnothing
  | failed error hreturned hnothing => exact .inl hnothing
  | answered response passage rest hreturned hrest hpolls =>
    exact .inr ⟨response, hreturned, congrArg Prod.fst hpolls⟩
  | gone hpolls => exact hpolls

/-- **Whatever is done to a visit without a claim,** its client has what the handler returned. -/
theorem HandsOn.act (h : HandsOn returned polls v.place) (w : World) (hclaim : v.claim = none)
    {a : Action}
    (hreturned : ∀ i result now passage, a = .reply i result now → v.place = .executing passage →
      returned result) :
    HandsOn returned (polls ++ v.polledIn g w a) (v.act g w a).2.place := by
  cases a with
  | deliver i now => exact h.deliver now w i
  | resume i timedOut now => exact (List.append_nil polls).symm ▸ h.resume now w timedOut
  | readRequest i => exact (List.append_nil polls).symm ▸ h.readRequest
  | reply i result now =>
    exact (List.append_nil polls).symm ▸ h.reply now w hclaim fun passage =>
      hreturned i result now passage rfl
  | absorb i now => exact (List.append_nil polls).symm ▸ h.absorb now w
  | leave i now => exact (List.append_nil polls).symm ▸ h.leave now w
  | arrive request preset now => exact (List.append_nil polls).symm ▸ h
  | purge now => exact (List.append_nil polls).symm ▸ h

end

end Visit

namespace Gates

/-- The same gates with other breakers. -/
def withRegistry (s : Gates) (registry : Breaker.Registry) : Gates :=
  { s with world := s.world.withRegistry registry }

section

variable {g : Guard} {s : Gates} {a : Action} {i : Nat} {u : Visit}

/-- **A step about a visit that needs no permission** is the same whatever the breakers are, and
leaves them as they are. -/
theorem step_withRegistry
    (hbare : ∀ v ∈ s.visits, g.needsPermission v.policy = false → v.permit = none)
    (hactor : s.actor? a = some i) (hu : (s.step g a).visits[i]? = some u)
    (hneeds : g.needsPermission u.policy = false) (registry : Breaker.Registry) :
    (s.withRegistry registry).step g a = (s.step g a).withRegistry registry := by
  cases about_step hactor hu with
  | arrives request preset now ha hnext hafter =>
    subst ha hnext
    obtain ⟨-, hpolicy⟩ := Visit.request_policy_arrive g s.world s.visits.length request preset now
    rw [hafter] at hpolicy
    rw [hpolicy] at hneeds
    have hsame := Visit.blind_arrive now s.visits.length request preset hneeds s.world registry
    exact congrArg (fun next : World × Visit => Gates.mk next.1 (s.visits ++ [next.2])) hsame
  | acts v hv ha hafter =>
    obtain ⟨now, given, hmoved⟩ := Visit.moved_act g s.world v a
    rw [hafter] at hmoved
    rw [hmoved.policy] at hneeds
    have hsame :=
      Visit.blind_act (g := g) (hbare v (List.mem_of_getElem? hv) hneeds) a s.world registry
    have hthere : (s.withRegistry registry).visits[i]? = some v := hv
    rw [step_of_getElem? hv ha, step_of_getElem? hthere ha]
    exact congrArg (fun next : World × Visit => Gates.mk next.1 (s.visits.set i next.2)) hsame

end

/-! ## Runs -/

/-- **The handler of a visit has returned** in a run: it was at the handler then. -/
def Returned (g : Guard) (s : Gates) (actions : List Action) (i : Nat)
    (result : Except String Response) : Prop :=
  ∃ before now after v passage, actions = before ++ Action.reply i result now :: after
    ∧ (s.run g before).visits[i]? = some v ∧ v.place = .executing passage

theorem Returned.concat {g : Guard} {s : Gates} {actions : List Action} {i : Nat}
    {result : Except String Response} (h : Returned g s actions i result) (a : Action) :
    Returned g s (actions ++ [a]) i result := by
  obtain ⟨before, now, after, v, passage, rfl, hv, hplace⟩ := h
  exact ⟨before, now, after ++ [a], v, passage, by simp, hv, hplace⟩

/-- **What the client of a visit has been given** of its response body: the results of its
polls, in order. -/
def deliveredTo (g : Guard) (i : Nat) : Gates → List Action → List Poll :=
  gathered g (contributed i (Visit.polledIn g))

/-- One more step delivers what its client polls in it. -/
theorem deliveredTo_concat (g : Guard) (i : Nat) (s : Gates) (actions : List Action) (a : Action) :
    deliveredTo g i s (actions ++ [a])
      = deliveredTo g i s actions ++ contributed i (Visit.polledIn g) (s.run g actions) a :=
  gathered_concat g (contributed i (Visit.polledIn g)) s actions a

/-- **The client of an exempt visit** has what its handler returned, and the handler was called. -/
theorem handsOn_run (g : Guard) (config : Breaker.BreakerConfig) (ttlMs : Option Nat)
    (actions : List Action) {i : Nat} {u : Visit}
    (hu : ((start (World.start config ttlMs)).run g actions).visits[i]? = some u)
    (hexempt : u.Exempt g) :
    let s₀ := start (World.start config ttlMs)
    .invoked i ∈ (s₀.run g actions).world.history
      ∧ Visit.HandsOn (Returned g s₀ actions i) (deliveredTo g i s₀ actions) u.place := by
  intro s₀
  induction actions using List.reverseRecOn generalizing u with
  | nil => exact (not_getElem?_nil hu).elim
  | append_singleton actions a ih =>
    have howned := owned_run g config ttlMs actions
    have hback := (accounted_run g config ttlMs actions).gaveBack howned
    rw [run_concat] at hu
    rw [run_concat, deliveredTo_concat]
    by_cases hactor : (s₀.run g actions).actor? a = some i
    · cases about_step hactor hu with
      | arrives request preset now ha hnext hafter =>
        subst ha hnext
        obtain ⟨-, hpolicy⟩ := Visit.request_policy_arrive g (s₀.run g actions).world
          (s₀.run g actions).visits.length request preset now
        rw [hafter] at hpolicy
        rw [Visit.Exempt, hpolicy] at hexempt
        rw [Visit.arrive_of_exempt hexempt.1 hexempt.2] at hafter
        obtain ⟨hworld, hvisit⟩ := Prod.mk.inj hafter
        rw [← hworld, ← hvisit]
        refine ⟨List.mem_append_right _ (List.mem_singleton.2 rfl), .executing _ ?_⟩
        rw [contributed_of_ne (a := .arrive request preset now) (Option.some_ne_none _).symm,
          List.append_nil]
        exact gathered_of_length_le g _ s₀ actions (Nat.le_refl _)
      | acts v hv ha hafter =>
        obtain ⟨now, given, hmoved⟩ := Visit.moved_act g (s₀.run g actions).world v a
        rw [hafter] at hmoved
        have hbefore : v.Exempt g := by
          rw [Visit.Exempt, ← hmoved.policy]
          exact hexempt
        -- such a visit asks for no key, so there is nothing that it could have a claim on
        have hclaim : v.claim = none := by
          refine Option.eq_none_iff_forall_ne_some.2 fun key hkey => ?_
          have hasks := ((howned.sound i v hv).claim_eq_some_iff key).1 hkey
          exact absurd (hasks.1.1.symm.trans hbefore.2) nofun
        obtain ⟨hcalled, hhas⟩ := ih hv hbefore
        refine ⟨mem_history_step hback hcalled, ?_⟩
        have hnext :=
          (hhas.mono fun result h => h.concat a).act (g := g) (s₀.run g actions).world
            hclaim (a := a) ?_
        · rw [hafter] at hnext
          rw [contributed_of_getElem? hv ha]
          exact hnext
        · rintro j result now passage rfl hplace
          cases ha
          exact ⟨actions, now, [], v, passage, rfl, hv, hplace⟩
    · have hother : a.visit? ≠ some i := fun ha => hactor (actor?_of_visit? ha)
      obtain ⟨hcalled, hhas⟩ := ih (getElem?_of_step_of_ne hu hactor) hexempt
      rw [contributed_of_ne hother, List.append_nil]
      exact ⟨mem_history_step hback hcalled, hhas.mono fun result h => h.concat a⟩

end Gates
end Pipeline
end Gatehouse
