/-
The states of a breaker over a whole history.

A history is any list of operations with the times at which they are carried out; nothing is assumed
about who carries them out. What one operation can do to the state is listed once, in `StateStep`.

The point is the waiting time of an open breaker. It runs from the most recent opening, also after a
breaker has been half-open and opened again. That opening is found in the history itself
(`openings`), so it says nothing about what the breaker notes down; `stamped_performAll` shows that
a breaker that is not closed has noted exactly that time. While the wait lasts no operation does
anything (`perform_of_waiting`).
-/
import Gatehouse.Proofs.Breaker.Transitions
import Mathlib.Data.List.Induction

set_option autoImplicit false

namespace Gatehouse.Breaker

/-- An operation and the time of it in milliseconds. -/
structure TimedOperation where
  time : Nat
  operation : Operation
  deriving DecidableEq, Repr

namespace CircuitBreaker

/-! ## Histories -/

/-- The breaker after a history. -/
def performAll (b : CircuitBreaker) (history : List TimedOperation) : CircuitBreaker :=
  history.foldl (fun b x => (b.perform x.time x.operation).2) b

/-- An operation opens the breaker. -/
def Opens (b : CircuitBreaker) (x : TimedOperation) : Prop :=
  b.state ≠ .opened ∧ (b.perform x.time x.operation).2.state = .opened

instance (b : CircuitBreaker) (x : TimedOperation) : Decidable (b.Opens x) :=
  inferInstanceAs (Decidable (_ ∧ _))

/-- **When a breaker opens** in the course of a history, oldest first. -/
def openings (b : CircuitBreaker) : List TimedOperation → List Nat
  | [] => []
  | x :: rest =>
    (if b.Opens x then [x.time] else []) ++ (b.perform x.time x.operation).2.openings rest

theorem performAll_append (b : CircuitBreaker) (history more : List TimedOperation) :
    b.performAll (history ++ more) = (b.performAll history).performAll more :=
  List.foldl_append

theorem performAll_concat (b : CircuitBreaker) (history : List TimedOperation)
    (x : TimedOperation) :
    b.performAll (history ++ [x]) = ((b.performAll history).perform x.time x.operation).2 :=
  performAll_append b history [x]

theorem openings_concat (b : CircuitBreaker) (history : List TimedOperation) (x : TimedOperation) :
    b.openings (history ++ [x])
      = b.openings history ++ if (b.performAll history).Opens x then [x.time] else [] := by
  induction history generalizing b with
  | nil => exact List.append_nil _
  | cons y history ih =>
    rw [List.cons_append, openings, openings, ih, List.append_assoc]
    rfl

/-- A breaker opens at times of its history. -/
theorem exists_of_mem_openings {b : CircuitBreaker} {history : List TimedOperation} {t : Nat}
    (h : t ∈ b.openings history) : ∃ x ∈ history, x.time = t := by
  induction history generalizing b with
  | nil => exact absurd h List.not_mem_nil
  | cons y history ih =>
    rw [openings] at h
    rcases List.mem_append.1 h with hfirst | hlater
    · split at hfirst
      · exact ⟨y, List.mem_cons_self, (List.mem_singleton.1 hfirst).symm⟩
      · exact absurd hfirst List.not_mem_nil
    · obtain ⟨x, hx, htime⟩ := ih hlater
      exact ⟨x, List.mem_cons_of_mem y hx, htime⟩

/-! ## Steps -/

/-- **What one operation can do to the state of a breaker,** and to the time that it has noted. -/
inductive StateStep (b : CircuitBreaker) (x : TimedOperation) (after : CircuitBreaker) : Prop where
  | stays (hstate : after.state = b.state) (hopenedAt : after.openedAt = b.openedAt)
  /-- An outcome that is recorded trips a closed breaker. -/
  | opens (hoperation : x.operation = .succeed ∨ x.operation = .fail) (hbefore : b.state = .closed)
      (hafter : after.state = .opened) (hopenedAt : after.openedAt = some x.time)
  /-- A caller finds an open breaker that has waited. -/
  | probes (hoperation : x.operation = .acquire) (hbefore : b.state = .opened)
      (hwaited : b.hasWaited x.time = true) (hafter : after.state = .halfOpen)
      (hopenedAt : after.openedAt = b.openedAt)
  | closes (hoperation : x.operation = .succeed) (hbefore : b.state = .halfOpen)
      (hafter : after.state = .closed)
  /-- A failure opens a half-open breaker. -/
  | reopens (hoperation : x.operation = .fail) (hbefore : b.state = .halfOpen)
      (hafter : after.state = .opened) (hopenedAt : after.openedAt = some x.time)

theorem StateStep.record (failed : Bool) {b : CircuitBreaker} {x : TimedOperation}
    (hoperation : x.operation = if failed then .fail else .succeed) :
    StateStep b x (b.record x.time failed) := by
  cases hstate : b.state with
  | opened =>
    rw [record_opened hstate]
    exact .stays rfl rfl
  | closed =>
    rw [record_of_closed hstate]
    split
    · refine .opens ?_ hstate rfl rfl
      cases failed with
      | false => exact .inl hoperation
      | true => exact .inr hoperation
    · exact .stays rfl rfl
  | halfOpen =>
    cases failed with
    | true =>
      rw [record_failure_halfOpen hstate]
      exact .reopens hoperation hstate rfl rfl
    | false =>
      rw [record_success_halfOpen hstate]
      split
      · exact .closes hoperation hstate rfl
      · exact .stays rfl rfl

/-- **Every operation does one of these.** -/
theorem stateStep (b : CircuitBreaker) (x : TimedOperation) :
    StateStep b x (b.perform x.time x.operation).2 := by
  cases hoperation : x.operation with
  | acquire =>
    change StateStep b x (b.acquire x.time).2
    rcases b.acquire_cases x.time with ⟨-, heq⟩ | ⟨-, -, heq⟩ | ⟨hs, hwaited, heq⟩ | ⟨-, heq⟩
    · rw [heq]
      exact .stays rfl rfl
    · rw [heq]
      exact .stays rfl rfl
    · rw [heq]
      exact .probes hoperation hs hwaited (by simp) (by simp)
    · rw [heq]
      exact .stays (state_issueTrial b) (openedAt_issueTrial b)
  | succeed => exact StateStep.record false hoperation
  | fail => exact StateStep.record true hoperation
  | release => exact .stays (state_release b) (openedAt_release b)
  | inspect => exact .stays rfl rfl

/-- **While the wait lasts** every operation is refused or ignored. -/
theorem perform_of_waiting {b : CircuitBreaker} {now : Nat} (hopened : b.state = .opened)
    (hwaiting : b.hasWaited now = false) (operation : Operation) :
    b.perform now operation = (false, b) := by
  cases operation with
  | acquire =>
    rcases b.acquire_cases now with ⟨hs, -⟩ | ⟨-, -, heq⟩ | ⟨-, hwaited, -⟩ | ⟨hs, -⟩
    · exact absurd (hs.symm.trans hopened) nofun
    · exact heq
    · exact absurd (hwaited.symm.trans hwaiting) nofun
    · exact absurd (hs.symm.trans hopened) nofun
  | succeed => exact congrArg (Prod.mk false) (record_opened hopened now false)
  | fail => exact congrArg (Prod.mk false) (record_opened hopened now true)
  | release =>
    have hrelease : b.release = b := by
      rw [release, if_neg]
      rw [hopened]
      decide
    exact congrArg (Prod.mk false) hrelease
  | inspect => rfl

theorem performAll_of_waiting {b : CircuitBreaker} {history : List TimedOperation}
    (hopened : b.state = .opened) (hwaiting : ∀ x ∈ history, b.hasWaited x.time = false) :
    b.performAll history = b := by
  induction history with
  | nil => rfl
  | cons x history ih =>
    rw [← List.singleton_append, performAll_append]
    have hfirst : b.performAll [x] = b :=
      congrArg Prod.snd (perform_of_waiting hopened (hwaiting x List.mem_cons_self) x.operation)
    rw [hfirst]
    exact ih fun y hy => hwaiting y (List.mem_cons_of_mem x hy)

theorem settings_perform (b : CircuitBreaker) (now : Nat) (operation : Operation) :
    (b.perform now operation).2.settings = b.settings := by
  cases operation with
  | acquire =>
    change (b.acquire now).2.settings = b.settings
    rcases b.acquire_cases now with ⟨-, heq⟩ | ⟨-, -, heq⟩ | ⟨-, -, heq⟩ | ⟨-, heq⟩
    · rw [heq]
    · rw [heq]
    · rw [heq, settings_issueTrial, settings_halfOpen]
    · rw [heq, settings_issueTrial]
  | succeed => exact settings_record b now false
  | fail => exact settings_record b now true
  | release => exact settings_release b
  | inspect => rfl

theorem settings_performAll (b : CircuitBreaker) (history : List TimedOperation) :
    (b.performAll history).settings = b.settings := by
  induction history using List.reverseRecOn with
  | nil => rfl
  | append_singleton history x ih => rw [performAll_concat, settings_perform, ih]

/-! ## The most recent opening -/

/-- **Invariant:** a breaker that is not closed has noted when it last opened. -/
def Stamped (b : CircuitBreaker) (lastOpening : Option Nat) : Prop :=
  b.state ≠ .closed → ∃ since, b.openedAt = some since ∧ lastOpening = some since

theorem StateStep.stamped {b after : CircuitBreaker} {x : TimedOperation}
    (hstep : StateStep b x after) {openings : List Nat} (h : b.Stamped openings.getLast?) :
    after.Stamped
      (openings ++ if b.state ≠ .opened ∧ after.state = .opened then [x.time]
        else []).getLast? := by
  intro hnotClosed
  cases hstep with
  | stays hstate hopenedAt =>
    -- the state is the same as before, so this is no opening
    have hno : ¬(b.state ≠ .opened ∧ after.state = .opened) := fun hopens =>
      hopens.1 (hstate.symm.trans hopens.2)
    rw [if_neg hno, List.append_nil, hopenedAt]
    exact h (hstate ▸ hnotClosed)
  | opens _ hbefore hafter hopenedAt =>
    rw [if_pos ⟨by rw [hbefore]; decide, hafter⟩]
    exact ⟨x.time, hopenedAt, List.getLast?_concat⟩
  | probes _ hbefore _ hafter hopenedAt =>
    have hno : ¬(b.state ≠ .opened ∧ after.state = .opened) := fun hopens => hopens.1 hbefore
    rw [if_neg hno, List.append_nil, hopenedAt]
    exact h (by rw [hbefore]; decide)
  | closes _ _ hafter => exact absurd hafter hnotClosed
  | reopens _ hbefore hafter hopenedAt =>
    rw [if_pos ⟨by rw [hbefore]; decide, hafter⟩]
    exact ⟨x.time, hopenedAt, List.getLast?_concat⟩

/-- **After every history** a breaker that is not closed has noted when it last opened. -/
theorem stamped_performAll (settings : Settings) (history : List TimedOperation) :
    ((ofSettings settings).performAll history).Stamped
      ((ofSettings settings).openings history).getLast? := by
  induction history using List.reverseRecOn with
  | nil => exact fun hnotClosed => absurd rfl hnotClosed
  | append_singleton history x ih =>
    rw [performAll_concat, openings_concat]
    exact (stateStep _ x).stamped ih

/-! ## Lifecycle -/

/-- Operations in the order of their times. -/
def Chronological (history : List TimedOperation) : Prop :=
  history.Pairwise fun x y => x.time ≤ y.time

instance (history : List TimedOperation) : Decidable (Chronological history) :=
  inferInstanceAs (Decidable (List.Pairwise _ _))

/-- **The ways in which a breaker goes from one state to another** by an operation, with a waiting
time and the time of the most recent opening. -/
inductive Transition (waitDurationMs : Nat) (lastOpening : Option Nat) (x : TimedOperation) :
    State → State → Prop where
  | opens (h : x.operation = .succeed ∨ x.operation = .fail) :
    Transition waitDurationMs lastOpening x .closed .opened
  | probes (since : Nat) (h : x.operation = .acquire) (hlast : lastOpening = some since)
      (hwaited : since + waitDurationMs ≤ x.time) :
    Transition waitDurationMs lastOpening x .opened .halfOpen
  | closes (h : x.operation = .succeed) : Transition waitDurationMs lastOpening x .halfOpen .closed
  | reopens (h : x.operation = .fail) : Transition waitDurationMs lastOpening x .halfOpen .opened

/-- A step that changes the state is one of the transitions, if no opening lies in the future. -/
theorem StateStep.transition {b after : CircuitBreaker} {x : TimedOperation}
    (hstep : StateStep b x after) {lastOpening : Option Nat} (hstamped : b.Stamped lastOpening)
    (hpast : ∀ since, lastOpening = some since → since ≤ x.time)
    (hchanges : after.state ≠ b.state) :
    Transition b.settings.waitDurationMs lastOpening x b.state after.state := by
  cases hstep with
  | stays hstate => exact absurd hstate hchanges
  | opens hoperation hbefore hafter =>
    rw [hbefore, hafter]
    exact .opens hoperation
  | probes hoperation hbefore hwaited hafter =>
    obtain ⟨since, hopenedAt, hlast⟩ := hstamped (by rw [hbefore]; decide)
    have hnotWaiting : ¬x.time - since < b.settings.waitDurationMs := fun hlt => by
      rw [hasWaited_eq_false_iff.2 ⟨since, hopenedAt, hlt⟩] at hwaited
      cases hwaited
    have hle := hpast since hlast
    rw [hbefore, hafter]
    exact .probes since hoperation hlast (by omega)
  | closes hoperation hbefore hafter =>
    rw [hbefore, hafter]
    exact .closes hoperation
  | reopens hoperation hbefore hafter =>
    rw [hbefore, hafter]
    exact .reopens hoperation

/-- A breaker that has just opened has noted the time. -/
theorem Opens.openedAt {b : CircuitBreaker} {x : TimedOperation} (h : b.Opens x) :
    (b.perform x.time x.operation).2.openedAt = some x.time := by
  obtain ⟨hbefore, hafter⟩ := h
  cases stateStep b x with
  | stays hstate => exact absurd (hstate.symm.trans hafter) hbefore
  | opens _ _ _ hopenedAt => exact hopenedAt
  | probes _ hopened => exact absurd hopened hbefore
  | closes _ _ hclosed => exact absurd (hclosed.symm.trans hafter) nofun
  | reopens _ _ _ hopenedAt => exact hopenedAt

/-- **The lifecycle of a breaker.** After every history in the order of time, and for every
operation that follows it:
- a change of the state is one of the four transitions, and an open breaker becomes half-open only
  when its waiting time has passed since the most recent opening;
- an open breaker has noted when it last opened;
- as long as the waiting time has not passed since some opening, the operation is refused or
  ignored, and so was everything since: the breaker is as it was left by that opening. -/
theorem lifecycle_performAll (settings : Settings) (history : List TimedOperation)
    (x : TimedOperation) (htimes : Chronological (history ++ [x])) :
    let b := (ofSettings settings).performAll history
    let lastOpening := ((ofSettings settings).openings history).getLast?
    let after := (b.perform x.time x.operation).2
    (after.state ≠ b.state → Transition settings.waitDurationMs lastOpening x b.state after.state)
      ∧ (b.state = .opened → ∃ since, b.openedAt = some since ∧ lastOpening = some since)
      ∧ ∀ before opening between, history = before ++ opening :: between →
        ((ofSettings settings).performAll before).Opens opening →
        x.time < opening.time + settings.waitDurationMs →
        b.perform x.time x.operation
          = (false, (ofSettings settings).performAll (before ++ [opening])) := by
  intro b lastOpening after
  have hstamped : b.Stamped lastOpening := stamped_performAll settings history
  have hsettings : b.settings = settings := settings_performAll (ofSettings settings) history
  have hbeforeNow : ∀ y ∈ history, y.time ≤ x.time := fun y hy =>
    (List.pairwise_append.1 htimes).2.2 y hy x (List.mem_singleton.2 rfl)
  refine ⟨fun hchanges => ?_, fun hopened => hstamped (by rw [hopened]; decide), ?_⟩
  · have hpast : ∀ since, lastOpening = some since → since ≤ x.time := by
      intro since hlast
      obtain ⟨y, hy, rfl⟩ := exists_of_mem_openings (List.mem_of_getLast? hlast)
      exact hbeforeNow y hy
    have htransition := (stateStep b x).transition hstamped hpast hchanges
    rwa [hsettings] at htransition
  · rintro before opening between rfl hopens hlt
    let stopped := (ofSettings settings).performAll (before ++ [opening])
    have hstopped : stopped.state = .opened ∧ stopped.openedAt = some opening.time := by
      change ((ofSettings settings).performAll (before ++ [opening])).state = .opened
        ∧ ((ofSettings settings).performAll (before ++ [opening])).openedAt = some opening.time
      rw [performAll_concat]
      exact ⟨hopens.2, hopens.openedAt⟩
    have hwait : stopped.settings.waitDurationMs = settings.waitDurationMs :=
      congrArg (·.waitDurationMs) (settings_performAll (ofSettings settings) (before ++ [opening]))
    -- whatever happens from the opening on, up to the operation, happens within the waiting time
    have hwaiting : ∀ y ∈ between ++ [x], stopped.hasWaited y.time = false := by
      intro y hy
      rw [List.append_assoc, List.cons_append] at htimes
      have hafterOpening := (List.pairwise_cons.1 (List.pairwise_append.1 htimes).2.1).1 y hy
      have hnotLater : y.time ≤ x.time := by
        rcases List.mem_append.1 hy with hbetween | hlast
        · exact hbeforeNow y (List.mem_append_right before (List.mem_cons_of_mem opening hbetween))
        · exact Nat.le_of_eq (congrArg _ (List.mem_singleton.1 hlast))
      exact hasWaited_eq_false_iff.2 ⟨opening.time, hstopped.2, by omega⟩
    have hkept : b = stopped := by
      change (ofSettings settings).performAll (before ++ opening :: between) = stopped
      rw [← List.singleton_append, ← List.append_assoc, performAll_append]
      exact performAll_of_waiting hstopped.1 fun y hy => hwaiting y (List.mem_append_left [x] hy)
    rw [hkept]
    exact perform_of_waiting hstopped.1
      (hwaiting x (List.mem_append_right between List.mem_cons_self)) _

/-- One failure opens the breaker, and it waits for ten milliseconds. -/
def briefWait : Settings :=
  { failureRateThreshold := Number.BinaryFormat.single.ofNat 50, slidingWindowSize := 1,
    minimumNumberOfCalls := 1, waitDurationMs := 10, permittedCallsInHalfOpenState := 1 }

/-- A call fails at 1, its trial is admitted at 11 and fails at 12; an earlier call
succeeds at 20. -/
def reopened : List TimedOperation :=
  [⟨0, .acquire⟩, ⟨0, .acquire⟩, ⟨1, .fail⟩, ⟨11, .acquire⟩, ⟨12, .fail⟩, ⟨20, .succeed⟩]

/-- The wait has begun anew at 12, so at 21 a caller is refused. -/
theorem lifecycle_performAll_reopened :
    Chronological (reopened ++ [⟨21, .acquire⟩])
      ∧ (∃ since, ((ofSettings briefWait).performAll reopened).openedAt = some since
        ∧ ((ofSettings briefWait).openings reopened).getLast? = some since)
      ∧ ((ofSettings briefWait).performAll reopened).perform 21 .acquire
        = (false, (ofSettings briefWait).performAll (reopened.take 5)) := by
  have htimes : Chronological (reopened ++ [⟨21, .acquire⟩]) := by decide
  obtain ⟨-, hstamped, hwaits⟩ := lifecycle_performAll briefWait reopened ⟨21, .acquire⟩ htimes
  refine ⟨htimes, hstamped (by decide), ?_⟩
  exact hwaits (reopened.take 4) ⟨12, .fail⟩ [⟨20, .succeed⟩] rfl (by decide) (by decide)

end CircuitBreaker
end Gatehouse.Breaker
