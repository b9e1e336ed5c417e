/-
Where a visit can stand, and the four effects of a move.

The list of moves is long because visits stand in many places. For the ledger most of them come to
the same: a move notes some events, takes a key, gives up the claim of its visit, or completes it.
That is the `Effect` of a move, and invariants of the ledger alone are a matter of these four cases.
To see that a move has such an effect one has to know with which claim a visit can stand where it
stands; this is `Sound`, and a move keeps it.
-/
import Gatehouse.Proofs.Pipeline.Ledger

set_option autoImplicit false

namespace Gatehouse.Pipeline

open Gatehouse.Http Gatehouse.Idempotency Gatehouse.Traffic

/-! ## Where a visit can stand -/

/-- A request that has come and has no result yet. -/
def Place.UnderWay : Place → Prop
  | .waiting _ _ => True
  | .executing _ => True
  | .storing _ _ _ _ _ => True
  | _ => False

instance (place : Place) : Decidable place.UnderWay := by
  cases place <;> simp only [Place.UnderWay] <;> infer_instance

/-- The handler has been called, and what it answers has not been taken in yet. -/
def Place.AtHandler : Place → Prop
  | .executing _ => True
  | .storing _ _ _ _ _ => True
  | _ => False

theorem Place.AtHandler.underWay {place : Place} (h : place.AtHandler) : place.UnderWay := by
  cases place with
  | executing passage => trivial
  | storing key status headers passage reading => trivial
  | _ => exact h.elim

namespace Visit

/-- **Place and claim of a visit** that asks for certain keys: it holds a claim from the handler on
until its response is stored, on the key that it asks for, and a visit at the handler without one
asks for nothing. -/
def Stands (asks : String → Prop) : Place → Option String → Prop
  | .waiting key _, none => asks key
  | .executing _, some key => asks key
  | .executing _, none => ∀ key, ¬asks key
  | .storing key _ _ _ _, some held => held = key ∧ asks key
  | .answered _ _ _, none => True
  | .failed _, none => True
  | .gone, none => True
  | _, _ => False

/-- **A visit is sound** if its claim fits the place where it stands. -/
def Sound (g : Guard) (v : Visit) : Prop := Stands (v.AsksFor g) v.place v.claim

theorem Fresh.sound {v : Visit} (g : Guard) (h : v.Fresh) : v.Sound g := by
  rw [Sound, h.place, h.claim]
  trivial

section

variable {g : Guard} {v : Visit}

theorem Sound.of_waiting (h : v.Sound g) {key : String} {handle : InFlight}
    (hplace : v.place = .waiting key handle) : v.claim = none ∧ v.AsksFor g key := by
  rw [Sound, hplace] at h
  cases hclaim : v.claim with
  | none => rw [hclaim] at h; exact ⟨rfl, h⟩
  | some held => rw [hclaim] at h; exact h.elim

/-- A visit whose response is to be stored has the claim on the key that it asks for. -/
theorem Sound.of_storing (h : v.Sound g) {key : String} {status : Status} {headers : Headers}
    {passage : Passage} {reading : Reading}
    (hplace : v.place = .storing key status headers passage reading) :
    v.claim = some key ∧ v.AsksFor g key := by
  rw [Sound, hplace] at h
  cases hclaim : v.claim with
  | none => rw [hclaim] at h; exact h.elim
  | some held => rw [hclaim] at h; exact ⟨congrArg some h.1, h.2⟩

theorem Sound.of_executing (h : v.Sound g) {key : String} {passage : Passage}
    (hplace : v.place = .executing passage) (hclaim : v.claim = some key) : v.AsksFor g key := by
  rw [Sound, hplace, hclaim] at h
  exact h

/-- A visit without a claim at its handler asks for no key at all. -/
theorem Sound.of_executing_none (h : v.Sound g) {passage : Passage}
    (hplace : v.place = .executing passage) (hclaim : v.claim = none) :
    ∀ key, ¬v.AsksFor g key := by
  rw [Sound, hplace, hclaim] at h
  exact h

theorem Sound.of_answered (h : v.Sound g) {status : Status} {headers : Headers} {passage : Passage}
    (hplace : v.place = .answered status headers passage) : v.claim = none := by
  rw [Sound, hplace] at h
  cases hclaim : v.claim with
  | none => rfl
  | some held => rw [hclaim] at h; exact h.elim

/-- A visit that may claim a key has no claim yet, and asks for that key. -/
theorem Sound.of_wants (h : v.Sound g) {key : String} (hwants : v.Wants g key) :
    v.claim = none ∧ v.AsksFor g key := by
  rcases hwants with ⟨hfresh, hasks⟩ | ⟨handle, hplace⟩
  · exact ⟨hfresh.claim, hasks⟩
  · exact h.of_waiting hplace

/-- A request asks for the same keys however its visit has moved. -/
theorem Moved.asksFor {now : Nat} {given : Option Response} {x after : Ledger} {u : Visit}
    (h : Moved g now given x v after u) : u.AsksFor g = v.AsksFor g := by
  funext key
  rw [AsksFor, AsksFor, h.policy, h.request]

/-- **A visit that moves stands where it can.** -/
theorem Moves.stands {now : Nat} {given : Option Response} {x after : Ledger}
    {claim : Option String} {place : Place} (h : Moves g now given x v after claim place)
    (hv : v.Sound g) :
    Stands (v.AsksFor g) place claim := by
  -- by the place and the claim after the move; where the claim stays, the place before says which
  -- one it is
  cases h with
  | stays => exact hv
  | denied => trivial
  | refused => trivial
  | passes passage hfresh hnone => exact hnone
  | claims key passage hwants hfree => exact (hv.of_wants hwants).2
  | replays key record storedAt hwants hslot hkept =>
    rw [(hv.of_wants hwants).1]
    trivial
  | waits key n hwants hslot =>
    rw [(hv.of_wants hwants).1]
    exact (hv.of_wants hwants).2
  | rejected key headers passage hwants =>
    rw [(hv.of_wants hwants).1]
    trivial
  | replaysAwaited key handle record hplace hended =>
    rw [(hv.of_waiting hplace).1]
    trivial
  | reads passage next hplace =>
    cases hclaim : v.claim with
    | none => exact hv.of_executing_none hplace hclaim
    | some key => exact hv.of_executing hplace hclaim
  | fails => trivial
  | answers => trivial
  | captures key passage next response hplace hclaim hgiven hbody =>
    exact ⟨rfl, hv.of_executing hplace hclaim⟩
  | absorbs key status headers passage next reading frame hplace hbody =>
    rw [(hv.of_storing hplace).1]
    exact ⟨rfl, (hv.of_storing hplace).2⟩
  | captureFails => trivial
  | stores => trivial
  | delivers status headers passage next hplace =>
    rw [hv.of_answered hplace]
    trivial
  | leaves => trivial

/-- **A move leaves a visit sound.** -/
theorem Moved.sound {now : Nat} {given : Option Response} {x after : Ledger} {u : Visit}
    (h : Moved g now given x v after u) (hv : v.Sound g) : u.Sound g := by
  rw [Sound, h.asksFor]
  exact h.moves.stands hv

end

/-! ## What a move does to a ledger -/

/-- An event of a visit that neither makes nor ends a claim; if it calls the handler,
then for no key. -/
def Quiet (g : Guard) (v : Visit) : Event → Prop
  | .claimed _ _ => False
  | .unclaimed _ _ => False
  | .stored _ _ => False
  | .invoked visit => visit = v.id ∧ ∀ key, ¬v.AsksFor g key
  | _ => True

/-- **Effect of a move** on the ledger and on the claim of the visit: some events are noted, a key
is taken, the claim is given up, or it is completed. -/
inductive Effect (g : Guard) (now : Nat) (x : Ledger) (v : Visit) :
    Ledger → Option String → Prop where
  | notes (events : List Event) (hquiet : ∀ e ∈ events, Quiet g v e) :
    Effect g now x v (x.noteAll events) v.claim
  | takes (key : String) (hclaim : v.claim = none) (hasks : v.AsksFor g key)
      (hfree : x.store.Free key now) :
    Effect g now x v (x.take v.id key) (some key)
  | givesUp (events : List Event) (hquiet : ∀ e ∈ events, Quiet g v e) :
    Effect g now x v ((x.noteAll events).giveUp v.id v.claim) none
  | completes (key : String) (status : Status) (headers : Headers) (passage : Passage)
      (reading : Reading) (hclaim : v.claim = some key)
      (hplace : v.place = .storing key status headers passage reading)
      (hbody : ∀ body, passage.responseBody? = some body → body.pieces = []) :
    Effect g now x v
      (x.complete v.id (Record.ofResponse key { status, headers, body := reading.data }) now) none

section

variable {g : Guard} {now : Nat} {given : Option Response} {x after : Ledger} {v : Visit}
  {claim : Option String} {place : Place}

theorem Effect.nothing : Effect g now x v x v.claim := by
  have h : Effect g now x v (x.noteAll []) v.claim := .notes [] nofun
  rwa [Ledger.noteAll, List.append_nil] at h

theorem Effect.note {e : Event} (hquiet : Quiet g v e) : Effect g now x v (x.note e) v.claim :=
  .notes [e] fun _ hother => List.mem_singleton.1 hother ▸ hquiet

theorem Effect.giveUp : Effect g now x v (x.giveUp v.id v.claim) none := by
  have h : Effect g now x v ((x.noteAll []).giveUp v.id v.claim) none := .givesUp [] nofun
  rwa [Ledger.noteAll, List.append_nil] at h

/-- Without a claim before and after, noting an event is all there is. -/
theorem Effect.note_none {e : Event} (hclaim : v.claim = none) (hquiet : Quiet g v e) :
    Effect g now x v (x.note e) none := by
  have h : Effect g now x v (x.note e) v.claim := .note hquiet
  rwa [hclaim] at h

/-- **Every move has one of the four effects.** -/
theorem Moves.effect (h : Moves g now given x v after claim place) (hv : v.Sound g) :
    Effect g now x v after claim := by
  cases h with
  -- moves that only change the place
  | stays => exact .nothing
  | waits => exact .nothing
  | reads => exact .nothing
  | absorbs => exact .nothing
  | delivers => exact .nothing
  -- moves that note an event and leave the claim as it is
  | replays => exact .note trivial
  | rejected => exact .note trivial
  | replaysAwaited => exact .note trivial
  | denied name status headers passage hfresh => exact .note_none hfresh.claim trivial
  | refused status headers passage hfresh => exact .note_none hfresh.claim trivial
  | passes passage hfresh hnone => exact .note_none hfresh.claim ⟨rfl, hnone⟩
  | answers passage next response hplace hclaim => exact .note_none hclaim trivial
  | captures key passage next response hplace hclaim =>
    have h : Effect g now x v
        (x.note (.returned v.id (.ok (response.status, response.headers)))) v.claim :=
      .note trivial
    rwa [hclaim] at h
  -- moves that make or end a claim
  | claims key passage hwants hfree =>
    exact .takes key (hv.of_wants hwants).1 (hv.of_wants hwants).2 hfree
  | fails passage error => exact .givesUp [_] fun e he => List.mem_singleton.1 he ▸ trivial
  | captureFails => exact .giveUp
  | leaves => exact .giveUp
  | stores key status headers passage reading hplace hbody =>
    exact .completes key status headers passage reading (hv.of_storing hplace).1 hplace hbody

end

end Visit
end Gatehouse.Pipeline
