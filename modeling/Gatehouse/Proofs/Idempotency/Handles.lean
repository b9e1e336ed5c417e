/-
What becomes of a handle.

A handle is given out while a key is claimed, and may be polled long after the claim is over and the
key has been claimed, completed and released by others. It stays bound to the claim that it was
given out for: what its holder gets is decided by the first completion or release of the key from
then on, and by nothing that comes later.

Claims are known by their numbers, so all rests on no number being used twice: a number in a slot is
in no other slot, it is below the next number, and no ending has been noted for it (`Sound`). The
work is in two statements about one operation, which say exactly when a claim stands after it
(`Distinct.pending_perform_iff`) and what it notes (`ending?_perform_of_ends`,
`ending?_perform_of_spares`). Neither is about a kind of operation, and nothing after them is.
-/
import Gatehouse.Proofs.Idempotency.Histories

set_option autoImplicit false

namespace Gatehouse.Idempotency.Store

/-- **How an operation ends a claim on a key,** if it does: by completing the key or
by releasing it. -/
def Operation.ends? (key : String) : Operation → Option Ending
  | .complete record => if record.key = key then some (.completed record) else none
  | .release released => if released = key then some .released else none
  | _ => none

/-! ## Claims and one operation -/

/-- A release takes away the claim on its key. -/
theorem not_pending_release (s : Store) (key : String) (n : Nat) :
    (s.release key).slot? key ≠ some (.pending n) := by
  intro h
  by_cases hpending : ∃ m, s.slot? key = some (.pending m)
  · obtain ⟨m, hm⟩ := hpending
    cases (slot?_release_of_pending hm).symm.trans h
  · rw [release_of_not_pending fun m hm => hpending ⟨m, hm⟩] at h
    exact hpending ⟨n, h⟩

/-- **When a claim stands after an operation:** it has stood before and is not ended by the
operation, or the operation has acquired the key, and the claim has the next number. -/
theorem Distinct.pending_perform_iff {s : Store} (h : s.Distinct) (x : TimedOperation)
    (key : String) (n : Nat) :
    (s.perform x).2.slot? key = some (.pending n)
      ↔ s.slot? key = some (.pending n) ∧ x.operation.ends? key = none
        ∨ s.Acquires x key ∧ n = s.claims := by
  obtain ⟨now, operation⟩ := x
  cases operation with
  | claim claimed =>
    -- a key that is acquired was free, so it did not have a claim
    have hfree : s.Acquires ⟨now, .claim claimed⟩ claimed →
        s.slot? claimed ≠ some (.pending n) := by
      intro hacquires hslot
      rcases (acquires_iff.1 hacquires).2 with hnone | ⟨_, _, hready, -⟩
      · cases hslot.symm.trans hnone
      · cases hslot.symm.trans hready
    by_cases heq : claimed = key
    · subst heq
      rcases s.perform_claim now claimed with ⟨hacquires, hafter⟩ | ⟨hacquires, hafter⟩
      · rw [hafter, slot?_take_self]
        simp [hfree hacquires, hacquires, eq_comm]
      · rw [hafter]
        simp [hacquires, Operation.ends?]
    · have hother : ¬s.Acquires ⟨now, .claim claimed⟩ key :=
        not_acquires fun h => heq (Operation.claim.inj h)
      rw [slot?_perform_claim_of_ne s now heq]
      simp [hother, Operation.ends?]
  | complete record =>
    have hother : ¬s.Acquires ⟨now, .complete record⟩ key := not_acquires nofun
    change (s.complete record now).slot? key = _ ↔ _
    by_cases heq : record.key = key
    · subst heq
      simp [hother, Operation.ends?]
    · rw [slot?_complete_of_ne s record now heq]
      simp [hother, Operation.ends?, heq]
  | release released =>
    have hother : ¬s.Acquires ⟨now, .release released⟩ key := not_acquires nofun
    change (s.release released).slot? key = _ ↔ _
    by_cases heq : released = key
    · subst heq
      simp [hother, Operation.ends?, not_pending_release]
    · rw [slot?_release_of_ne s heq]
      simp [hother, Operation.ends?, heq]
  | get found =>
    have hother : ¬s.Acquires ⟨now, .get found⟩ key := not_acquires nofun
    change s.slot? key = _ ↔ _
    simp [hother, Operation.ends?]
  | wait handle =>
    have hother : ¬s.Acquires ⟨now, .wait handle⟩ key := not_acquires nofun
    change s.slot? key = _ ↔ _
    simp [hother, Operation.ends?]
  | purge =>
    have hother : ¬s.Acquires ⟨now, .purge⟩ key := not_acquires nofun
    change (s.purge now).2.slot? key = _ ↔ _
    rw [h.pending_purge_iff now]
    simp [hother, Operation.ends?]

theorem claims_perform_of_acquires {s : Store} {x : TimedOperation} {key : String}
    (h : s.Acquires x key) :
    (s.perform x).2.claims = s.claims + 1 := by
  obtain ⟨now, operation⟩ := x
  obtain rfl : operation = .claim key := h.1
  rcases s.perform_claim now key with ⟨-, hafter⟩ | ⟨hnot, -⟩
  · rw [hafter]
    rfl
  · exact absurd h hnot

/-- Numbers are never given back. -/
theorem claims_le_perform (s : Store) (x : TimedOperation) : s.claims ≤ (s.perform x).2.claims := by
  obtain ⟨now, operation⟩ := x
  cases operation with
  | claim key =>
    rcases s.perform_claim now key with ⟨-, hafter⟩ | ⟨-, hafter⟩
    · rw [hafter]
      exact Nat.le_succ s.claims
    · exact Nat.le_of_eq (congrArg claims hafter).symm
  | complete record => exact Nat.le_of_eq (claims_complete s record now).symm
  | release key => exact Nat.le_of_eq (claims_release s key).symm
  | get key => exact Nat.le_refl _
  | wait handle => exact Nat.le_refl _
  | purge => exact Nat.le_refl _

theorem ending?_endClaim_of_pending {s : Store} {key : String} {n : Nat}
    (h : s.slot? key = some (.pending n)) (ending : Ending) :
    (s.endClaim key ending).ending? ⟨n⟩ = some ending := by
  rw [endClaim, h]
  exact List.lookup_cons_self

theorem ending?_endClaim_of_ne {s : Store} {key : String} {n : Nat}
    (h : s.slot? key ≠ some (.pending n)) (ending : Ending) :
    (s.endClaim key ending).ending? ⟨n⟩ = s.ending? ⟨n⟩ := by
  unfold endClaim
  rcases hslot : s.slot? key with _ | m | ⟨record, storedAt⟩
  · rfl
  · have hne : n ≠ m := fun heq => h (heq ▸ hslot)
    change List.lookup n ((m, ending) :: s.endings) = List.lookup n s.endings
    rw [List.lookup_cons, beq_eq_false_iff_ne.2 hne]
  · rfl

theorem ending?_release (s : Store) (key : String) (n : Nat) :
    (s.release key).ending? ⟨n⟩ = (s.endClaim key .released).ending? ⟨n⟩ := by
  unfold release endClaim
  rcases s.slot? key with _ | _ | _ <;> rfl

/-- **An operation that ends a claim** is noted as what it is. -/
theorem ending?_perform_of_ends {s : Store} {x : TimedOperation} {key : String} {n : Nat}
    (hslot : s.slot? key = some (.pending n)) {ending : Ending}
    (hends : x.operation.ends? key = some ending) :
    (s.perform x).2.ending? ⟨n⟩ = some ending := by
  obtain ⟨now, operation⟩ := x
  cases operation with
  | complete record =>
    obtain ⟨rfl, heq⟩ := Option.ite_none_right_eq_some.1 hends
    rw [← Option.some.inj heq]
    exact ending?_endClaim_of_pending hslot _
  | release released =>
    obtain ⟨rfl, heq⟩ := Option.ite_none_right_eq_some.1 hends
    rw [← Option.some.inj heq]
    exact (ending?_release s released n).trans (ending?_endClaim_of_pending hslot _)
  | claim => cases hends
  | get => cases hends
  | wait => cases hends
  | purge => cases hends

/-- An operation that ends no claim with a number notes nothing for it. -/
theorem ending?_perform_of_spares {s : Store} {x : TimedOperation} {n : Nat}
    (h : ∀ key, s.slot? key = some (.pending n) → x.operation.ends? key = none) :
    (s.perform x).2.ending? ⟨n⟩ = s.ending? ⟨n⟩ := by
  obtain ⟨now, operation⟩ := x
  cases operation with
  | claim key =>
    rcases s.perform_claim now key with ⟨-, hafter⟩ | ⟨-, hafter⟩
    · rw [hafter]
      rfl
    · rw [hafter]
  | complete record =>
    refine ending?_endClaim_of_ne (fun hslot => ?_) _
    have hnone := h record.key hslot
    simp [Operation.ends?] at hnone
  | release released =>
    refine (ending?_release s released n).trans (ending?_endClaim_of_ne (fun hslot => ?_) _)
    have hnone := h released hslot
    simp [Operation.ends?] at hnone
  | get => rfl
  | wait => rfl
  | purge => rfl

/-! ## Numbers are used once -/

/-- **Invariant:** a claim that stands has its number to itself and has not ended, and all numbers
are below the next one. -/
structure Sound (s : Store) : Prop where
  distinct : s.Distinct
  numbered : ∀ key n, s.slot? key = some (.pending n) → n < s.claims
  apart : ∀ key other n, s.slot? key = some (.pending n) →
    s.slot? other = some (.pending n) → key = other
  standing : ∀ key n, s.slot? key = some (.pending n) → s.ending? ⟨n⟩ = none
  ended : ∀ n, s.ending? ⟨n⟩ ≠ none → n < s.claims

theorem sound_ofTtl (ttl : Option Nat) : (ofTtl ttl).Sound where
  distinct := distinct_ofTtl ttl
  numbered := nofun
  apart := nofun
  standing := nofun
  ended := fun _ h => absurd rfl h

/-- What has been noted for a number stays noted: no claim with that number stands that
could end again. -/
theorem Sound.ending?_perform_of_ended {s : Store} (h : s.Sound) (x : TimedOperation) {n : Nat}
    {ending : Ending} (hended : s.ending? ⟨n⟩ = some ending) :
    (s.perform x).2.ending? ⟨n⟩ = some ending := by
  rw [ending?_perform_of_spares fun key hslot => ?_, hended]
  cases (h.standing key n hslot).symm.trans hended

/-- A claim that an operation leaves standing has no ending after it either. -/
theorem Sound.ending?_perform_of_standing {s : Store} (h : s.Sound) {x : TimedOperation}
    {key : String} {n : Nat} (hslot : s.slot? key = some (.pending n))
    (hspared : x.operation.ends? key = none) :
    (s.perform x).2.ending? ⟨n⟩ = none := by
  rw [ending?_perform_of_spares fun other hother => ?_, h.standing key n hslot]
  rw [← h.apart key other n hslot hother]
  exact hspared

theorem Sound.perform {s : Store} (h : s.Sound) (x : TimedOperation) : (s.perform x).2.Sound := by
  -- the next number is free: it is in no slot, and nothing has been noted for it
  have hnext : ∀ key, s.slot? key ≠ some (.pending s.claims) :=
    fun key hslot => absurd (h.numbered key _ hslot) (Nat.lt_irrefl _)
  have hunnoted : s.ending? ⟨s.claims⟩ = none := by
    by_contra hsome
    exact absurd (h.ended _ hsome) (Nat.lt_irrefl _)
  have hgrows := claims_le_perform s x
  refine ⟨h.distinct.perform x, fun key n hslot => ?_, fun key other n hkey hother => ?_,
    fun key n hslot => ?_, fun n hended => ?_⟩
  · rcases (h.distinct.pending_perform_iff x key n).1 hslot with ⟨hbefore, -⟩ | ⟨hacquires, rfl⟩
    · exact Nat.lt_of_lt_of_le (h.numbered key n hbefore) hgrows
    · rw [claims_perform_of_acquires hacquires]
      exact Nat.lt_succ_self _
  · rcases (h.distinct.pending_perform_iff x key n).1 hkey with ⟨hbefore, -⟩ | ⟨hacquires, rfl⟩
    · rcases (h.distinct.pending_perform_iff x other n).1 hother with ⟨hotherBefore, -⟩ | ⟨-, rfl⟩
      · exact h.apart key other n hbefore hotherBefore
      · exact absurd hbefore (hnext key)
    · rcases (h.distinct.pending_perform_iff x other s.claims).1 hother
        with ⟨hotherBefore, -⟩ | ⟨hotherAcquires, -⟩
      · exact absurd hotherBefore (hnext other)
      · exact Operation.claim.inj (hacquires.1.symm.trans hotherAcquires.1)
  · rcases (h.distinct.pending_perform_iff x key n).1 hslot
      with ⟨hbefore, hspared⟩ | ⟨hacquires, rfl⟩
    · exact h.ending?_perform_of_standing hbefore hspared
    · rw [ending?_perform_of_spares fun other hother => absurd hother (hnext other), hunnoted]
  · by_cases hbefore : ∃ key, s.slot? key = some (.pending n)
    · obtain ⟨key, hslot⟩ := hbefore
      exact Nat.lt_of_lt_of_le (h.numbered key n hslot) hgrows
    · rw [ending?_perform_of_spares fun key hslot => absurd ⟨key, hslot⟩ hbefore] at hended
      exact Nat.lt_of_lt_of_le (h.ended n hended) hgrows

theorem sound_run (ttl : Option Nat) (history : List TimedOperation) :
    ((ofTtl ttl).run history).Sound :=
  run_induction (sound_ofTtl ttl) (fun _ x h => h.perform x) history

/-! ## Histories -/

/-- What has been noted for a number stays noted through every history. -/
theorem Sound.ending?_run_of_ended {s : Store} (h : s.Sound) {n : Nat} {ending : Ending}
    (hended : s.ending? ⟨n⟩ = some ending) (history : List TimedOperation) :
    (s.run history).ending? ⟨n⟩ = some ending :=
  (run_induction (motive := fun t => t.Sound ∧ t.ending? ⟨n⟩ = some ending) ⟨h, hended⟩
    (fun _ x ht => ⟨ht.1.perform x, ht.1.ending?_perform_of_ended x ht.2⟩) history).2

/-- **What becomes of a claim that stands:** it ends at the first operation of a history that ends
it, and stands if there is none. -/
theorem Sound.run_of_pending {s : Store} (h : s.Sound) {key : String} {n : Nat}
    (hslot : s.slot? key = some (.pending n)) (history : List TimedOperation) :
    ((s.run history).slot? key = some (.pending n) ↔ ∀ x ∈ history, x.operation.ends? key = none)
      ∧ (s.run history).ending? ⟨n⟩ = history.findSome? fun x => x.operation.ends? key := by
  induction history generalizing s with
  | nil => exact ⟨iff_of_true hslot nofun, h.standing key n hslot⟩
  | cons x rest ih =>
    rw [run_cons, List.findSome?_cons, List.forall_mem_cons]
    cases hends : x.operation.ends? key with
    | none =>
      have hstands := (h.distinct.pending_perform_iff x key n).2 (.inl ⟨hslot, hends⟩)
      obtain ⟨hpending, hending⟩ := ih (h.perform x) hstands
      rw [hpending]
      exact ⟨(and_iff_right rfl).symm, hending⟩
    | some ending =>
      have hended := (h.perform x).ending?_run_of_ended (ending?_perform_of_ends hslot hends) rest
      refine ⟨iff_of_false (fun hpending => ?_) (fun hall => absurd hall.1 nofun), hended⟩
      -- a claim that has ended does not stand
      have hsound : ((s.perform x).2.run rest).Sound :=
        run_induction (h.perform x) (fun _ y ht => ht.perform y) rest
      cases (hsound.standing key n hpending).symm.trans hended

/-- **Where a claim comes from:** an operation has acquired its key, and none since has ended it. -/
theorem exists_acquires_of_pending {ttl : Option Nat} {history : List TimedOperation} {key : String}
    {n : Nat} (h : ((ofTtl ttl).run history).slot? key = some (.pending n)) :
    ∃ before x after, history = before ++ x :: after ∧ ((ofTtl ttl).run before).Acquires x key
      ∧ n = ((ofTtl ttl).run before).claims ∧ ∀ y ∈ after, y.operation.ends? key = none := by
  induction history using List.reverseRecOn with
  | nil => cases h
  | append_singleton history x ih =>
    rw [run_concat] at h
    rcases ((sound_run ttl history).distinct.pending_perform_iff x key n).1 h
      with ⟨hbefore, hspared⟩ | ⟨hacquires, hn⟩
    · obtain ⟨before, y, after, rfl, hacquires, hn, hafter⟩ := ih hbefore
      refine ⟨before, y, after ++ [x], by simp, hacquires, hn, fun z hz => ?_⟩
      rcases List.mem_append.1 hz with hz | hz
      · exact hafter z hz
      · rw [List.mem_singleton.1 hz]
        exact hspared
    · exact ⟨history, x, [], rfl, hacquires, hn, nofun⟩

/-- A handle is given out for the claim that stands. -/
theorem slot?_of_given {s : Store} {now : Nat} {key : String} {handle : InFlight}
    (h : (s.perform ⟨now, .claim key⟩).1 = .claim (.pending handle)) :
    s.slot? key = some (.pending handle.claim) ∧ (s.perform ⟨now, .claim key⟩).2 = s := by
  have hperform : s.perform ⟨now, .claim key⟩ = (.claim (s.claim key now).1, (s.claim key now).2) :=
    rfl
  rw [hperform] at h ⊢
  rcases s.claim_cases key now with ⟨hclaim, -⟩ | ⟨n, hclaim, hslot⟩ | ⟨record, storedAt, hclaim, -⟩
  · rw [hclaim] at h
    cases h
  · rw [hclaim] at h ⊢
    cases h
    exact ⟨hslot, rfl⟩
  · rw [hclaim] at h
    cases h

/-- **A handle is bound to its claim.** Whatever has happened to a store, a claim attempt that finds
a key claimed gives out a handle on the claim that was put on the key when it was last acquired and
that has not ended since. Whatever happens to the store from then on, the claim stands as long as
nobody completes or releases the key, and a poll of the handle, at any time, gives nothing until
then; from the first completion or release of the key on it gives the record that was completed, or
that there is none. -/
theorem wait_run_of_given (ttl : Option Nat) (before : List TimedOperation) (now : Nat)
    (key : String) (handle : InFlight)
    (hgiven : (((ofTtl ttl).run before).perform ⟨now, .claim key⟩).1 = .claim (.pending handle))
    (after : List TimedOperation) (later : Nat) :
    let s := (ofTtl ttl).run (before ++ ⟨now, .claim key⟩ :: after)
    (∃ first x rest, before = first ++ x :: rest ∧ ((ofTtl ttl).run first).Acquires x key
        ∧ handle.claim = ((ofTtl ttl).run first).claims ∧ ∀ y ∈ rest, y.operation.ends? key = none)
      ∧ (s.slot? key = some (.pending handle.claim) ↔ ∀ y ∈ after, y.operation.ends? key = none)
      ∧ (s.perform ⟨later, .wait handle⟩).1
          = .polled ((after.findSome? fun y => y.operation.ends? key).map Ending.left) := by
  intro s
  obtain ⟨hslot, hsame⟩ := slot?_of_given hgiven
  have hs : s = ((ofTtl ttl).run before).run after := by
    change (ofTtl ttl).run _ = _
    rw [run_append, run_cons, hsame]
  obtain ⟨hstands, hending⟩ := (sound_run ttl before).run_of_pending hslot after
  refine ⟨exists_acquires_of_pending hslot, ?_, ?_⟩
  · rw [hs]
    exact hstands
  · rw [hs, ← hending, ← Channel.poll_ofEnding]
    rfl

def created : Record := { key := "k", status := ⟨201⟩, headers := [], body := [] }

/-- The claim that the handle is for is released, another one is put on the key and completed with a
record, and only then is the handle polled: it says that its own claim has left no record. -/
theorem wait_run_of_given_released :
    let before : List TimedOperation := [⟨0, .claim "k"⟩]
    let after : List TimedOperation := [⟨2, .release "k"⟩, ⟨3, .claim "k"⟩, ⟨4, .complete created⟩]
    (((ofTtl (some 10)).run before).perform ⟨1, .claim "k"⟩).1 = .claim (.pending ⟨0⟩)
      ∧ (((ofTtl (some 10)).run (before ++ ⟨1, .claim "k"⟩ :: after)).perform ⟨5, .wait ⟨0⟩⟩).1
        = .polled (some none)
      ∧ ((ofTtl (some 10)).run (before ++ ⟨1, .claim "k"⟩ :: after)).get? "k" 5 = some created := by
  intro before after
  have hgiven : (((ofTtl (some 10)).run before).perform ⟨1, .claim "k"⟩).1
      = .claim (.pending ⟨0⟩) := by
    decide +kernel
  obtain ⟨-, -, hpolled⟩ := wait_run_of_given (some 10) before 1 "k" ⟨0⟩ hgiven after 5
  have hfirst : (after.findSome? fun y => y.operation.ends? "k") = some .released := by
    decide +kernel
  rw [hfirst] at hpolled
  exact ⟨hgiven, hpolled, by decide +kernel⟩

end Gatehouse.Idempotency.Store
