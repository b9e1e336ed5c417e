/-
Histories of a store.

A history is a list of operations on one store, each done at a time. Here a store is looked at from
outside: what is done to it, what the one who does it is told (`Store.perform`), and the answers to
a whole history in order (`Store.log`).

Someone who waits for a claim listens to a channel that belongs to the claim. Completing the claim
sends the record and drops the sender, giving the claim up drops the sender without a word. The
channel keeps its last value when its sender is gone, and says that the sender is gone; one poll of
a waiter rests on nothing else (`Channel.poll`).
-/
import Gatehouse.Proofs.Idempotency.StoreLaws
import Mathlib.Data.List.Induction

set_option autoImplicit false

namespace Gatehouse.Idempotency

/-! ## Waiting -/

/-- **What a listener knows of a channel.** -/
structure Channel where
  /-- What was sent last, if anything was. -/
  value : Option Record
  /-- Whether the sender is gone. -/
  closed : Bool
  deriving DecidableEq, Repr

namespace Channel

/-- The channel of a claim, which may have ended. -/
def ofEnding : Option Ending → Channel
  | none => { value := none, closed := false }
  | some (.completed record) => { value := some record, closed := true }
  | some .released => { value := none, closed := true }

/-- **One poll of a waiter:** a record that was sent is what it has waited for, and without one it
waits on as long as the sender is there; then it takes what the channel was left with. -/
def poll (c : Channel) : Option (Option Record) :=
  match c.value with
  | some record => some (some record)
  | none => if c.closed then some c.value else none

end Channel

/-- What those who waited for a claim get when it has ended. -/
def Ending.left : Ending → Option Record
  | .completed record => some record
  | .released => none

theorem Channel.poll_ofEnding (ending : Option Ending) :
    (Channel.ofEnding ending).poll = ending.map Ending.left := by
  rcases ending with _ | _ | _ <;> rfl

/-! ## Operations -/

namespace Store

/-- The channel that a handle listens to. -/
def channel (s : Store) (handle : InFlight) : Channel := Channel.ofEnding (s.ending? handle)

/-- **What can be done to a store.** -/
inductive Operation where
  | claim (key : String)
  | complete (record : Record)
  | release (key : String)
  | get (key : String)
  /-- One poll of a waiter. -/
  | wait (handle : InFlight)
  | purge
  deriving DecidableEq, Repr

structure TimedOperation where
  now : Nat
  operation : Operation
  deriving DecidableEq, Repr

/-- What one is told who does something to a store. -/
inductive Answer where
  | claim (found : Claim)
  | stored (record : Record)
  | released
  | got (record : Option Record)
  /-- Nothing yet, or what was waited for: a record, or that there will be none. -/
  | polled (result : Option (Option Record))
  | purged (count : Nat)
  deriving DecidableEq, Repr

/-- **One operation.** -/
def perform (s : Store) (x : TimedOperation) : Answer × Store :=
  match x.operation with
  | .claim key => (.claim (s.claim key x.now).1, (s.claim key x.now).2)
  | .complete record => (.stored record, s.complete record x.now)
  | .release key => (.released, s.release key)
  | .get key => (.got (s.get? key x.now), s)
  | .wait handle => (.polled (s.channel handle).poll, s)
  | .purge => (.purged (s.purge x.now).1, (s.purge x.now).2)

/-- The store after a history. -/
def run (s : Store) (history : List TimedOperation) : Store :=
  history.foldl (fun s x => (s.perform x).2) s

/-- **The operations of a history with their answers.** -/
def log (s : Store) : List TimedOperation → List (TimedOperation × Answer)
  | [] => []
  | x :: rest => (x, (s.perform x).1) :: (s.perform x).2.log rest

/-- An operation acquires a key: it claims it and is told that the key is its own. -/
def Acquires (s : Store) (x : TimedOperation) (key : String) : Prop :=
  x.operation = .claim key ∧ (s.perform x).1 = .claim .acquired

/-- A claim is put on a key that is free, and on no other. -/
theorem acquires_iff {s : Store} {x : TimedOperation} {key : String} :
    s.Acquires x key ↔ x.operation = .claim key ∧ s.Free key x.now := by
  obtain ⟨now, operation⟩ := x
  refine and_congr_right ?_
  rintro rfl
  change Answer.claim (s.claim key now).1 = .claim .acquired ↔ s.Free key now
  rw [Answer.claim.injEq]
  rcases s.claim_cases key now
    with ⟨hclaim, hfree⟩ | ⟨n, hclaim, hslot⟩ | ⟨record, storedAt, hclaim, hslot, hfresh⟩
  · rw [hclaim]
    exact iff_of_true rfl hfree
  · rw [hclaim]
    refine iff_of_false nofun ?_
    rintro (hnone | ⟨_, _, hready, -⟩)
    · cases hslot.symm.trans hnone
    · cases hslot.symm.trans hready
  · rw [hclaim]
    refine iff_of_false nofun ?_
    rintro (hnone | ⟨_, _, hready, hexpired⟩)
    · cases hslot.symm.trans hnone
    · cases hslot.symm.trans hready
      cases hfresh.symm.trans hexpired

/-- **What is left by an operation that claims a key:** its claim, if it acquires the key, and
otherwise what was there. -/
theorem perform_claim (s : Store) (now : Nat) (key : String) :
    s.Acquires ⟨now, .claim key⟩ key ∧ (s.perform ⟨now, .claim key⟩).2 = s.take key
      ∨ ¬s.Acquires ⟨now, .claim key⟩ key ∧ (s.perform ⟨now, .claim key⟩).2 = s := by
  have hperform : s.perform ⟨now, .claim key⟩ = (.claim (s.claim key now).1, (s.claim key now).2) :=
    rfl
  unfold Acquires
  rw [hperform]
  rcases s.claim_cases key now with ⟨hclaim, -⟩ | ⟨n, hclaim, -⟩ | ⟨record, storedAt, hclaim, -⟩
  · rw [hclaim]
    exact .inl ⟨⟨rfl, rfl⟩, rfl⟩
  · rw [hclaim]
    exact .inr ⟨fun h => absurd h.2 nofun, rfl⟩
  · rw [hclaim]
    exact .inr ⟨fun h => absurd h.2 nofun, rfl⟩

/-- Only its own key is changed by an operation that claims one. -/
theorem slot?_perform_claim_of_ne (s : Store) (now : Nat) {key other : String} (h : key ≠ other) :
    (s.perform ⟨now, .claim key⟩).2.slot? other = s.slot? other := by
  rcases s.perform_claim now key with ⟨-, hafter⟩ | ⟨-, hafter⟩
  · rw [hafter, slot?_take_of_ne s h]
  · rw [hafter]

/-- Only an operation that claims a key acquires it. -/
theorem not_acquires {s : Store} {x : TimedOperation} {key : String}
    (h : x.operation ≠ .claim key) :
    ¬s.Acquires x key :=
  fun hacquires => h hacquires.1

/-! ## Runs -/

theorem run_cons (s : Store) (x : TimedOperation) (rest : List TimedOperation) :
    s.run (x :: rest) = (s.perform x).2.run rest := rfl

theorem run_append (s : Store) (before after : List TimedOperation) :
    s.run (before ++ after) = (s.run before).run after :=
  List.foldl_append

theorem run_concat (s : Store) (history : List TimedOperation) (x : TimedOperation) :
    s.run (history ++ [x]) = ((s.run history).perform x).2 :=
  run_append s history [x]

/-- What every operation keeps is kept by every history. -/
theorem run_induction {motive : Store → Prop} {s : Store} (hstart : motive s)
    (hstep : ∀ s x, motive s → motive (s.perform x).2) (history : List TimedOperation) :
    motive (s.run history) := by
  induction history generalizing s with
  | nil => exact hstart
  | cons x rest ih => exact ih (hstep s x hstart)

theorem ttl_perform (s : Store) (x : TimedOperation) : (s.perform x).2.ttl = s.ttl := by
  obtain ⟨now, operation⟩ := x
  cases operation with
  | claim key =>
    rcases s.perform_claim now key with ⟨-, h⟩ | ⟨-, h⟩
    · rw [h]
      rfl
    · rw [h]
  | complete record => exact ttl_complete s record now
  | release key => exact ttl_release s key
  | get key => rfl
  | wait handle => rfl
  | purge => rfl

theorem Distinct.perform {s : Store} (h : s.Distinct) (x : TimedOperation) :
    (s.perform x).2.Distinct := by
  obtain ⟨now, operation⟩ := x
  cases operation with
  | claim key =>
    rcases s.perform_claim now key with ⟨-, hafter⟩ | ⟨-, hafter⟩
    · rw [hafter]
      exact h.take key
    · rw [hafter]
      exact h
  | complete record => exact h.complete record now
  | release key => exact h.release key
  | get key => exact h
  | wait handle => exact h
  | purge => exact h.purge now

theorem ttl_run (s : Store) (history : List TimedOperation) : (s.run history).ttl = s.ttl :=
  run_induction (motive := fun t => t.ttl = s.ttl) rfl
    (fun t x h => (ttl_perform t x).trans h) history

theorem Distinct.run {s : Store} (h : s.Distinct) (history : List TimedOperation) :
    (s.run history).Distinct :=
  run_induction h (fun _ x hs => hs.perform x) history

end Store
end Gatehouse.Idempotency
