/-
What one operation can do to a breaker.

Each operation is taken apart once, into the few things it can do, with the conditions under which
it does them. Nothing after this unfolds an operation.
-/
import Gatehouse.Breaker.Basic

set_option autoImplicit false

namespace Gatehouse.Breaker.CircuitBreaker

/-! ## The three transitions -/

@[simp] theorem settings_trip (b : CircuitBreaker) (now : Nat) :
    (b.trip now).settings = b.settings := rfl

/-- A breaker that trips is open from now on. -/
@[simp] theorem state_trip (b : CircuitBreaker) (now : Nat) : (b.trip now).state = .opened := rfl

/-- The time at which a breaker trips is the time of its opening. -/
@[simp] theorem openedAt_trip (b : CircuitBreaker) (now : Nat) :
    (b.trip now).openedAt = some now := rfl

@[simp] theorem settings_halfOpen (b : CircuitBreaker) : b.halfOpen.settings = b.settings := rfl

/-- A breaker that begins to try calls is half-open. -/
@[simp] theorem state_halfOpen (b : CircuitBreaker) : b.halfOpen.state = .halfOpen := rfl

/-- The time of opening is kept while calls are tried. -/
@[simp] theorem openedAt_halfOpen (b : CircuitBreaker) : b.halfOpen.openedAt = b.openedAt := rfl

/-- No trial has been issued then. -/
@[simp] theorem trialsIssued_halfOpen (b : CircuitBreaker) : b.halfOpen.trialsIssued = 0 := rfl

/-- No trial has succeeded then. -/
@[simp] theorem trialSuccesses_halfOpen (b : CircuitBreaker) : b.halfOpen.trialSuccesses = 0 := rfl

@[simp] theorem settings_close (b : CircuitBreaker) : b.close.settings = b.settings := rfl

@[simp] theorem state_close (b : CircuitBreaker) : b.close.state = .closed := rfl

/-! ## Asking for permission -/

/-- A trial permission, if there is one left. -/
def issueTrial (b : CircuitBreaker) : Bool × CircuitBreaker :=
  if b.trialsIssued < b.settings.permittedCallsInHalfOpenState then
    (true, { b with trialsIssued := b.trialsIssued + 1 })
  else (false, b)

@[simp] theorem settings_issueTrial (b : CircuitBreaker) :
    b.issueTrial.2.settings = b.settings := by
  unfold issueTrial
  split <;> rfl

/-- A breaker that issues a trial stays in its state. -/
@[simp] theorem state_issueTrial (b : CircuitBreaker) : b.issueTrial.2.state = b.state := by
  unfold issueTrial
  split <;> rfl

/-- A trial that is issued has not succeeded yet. -/
@[simp] theorem trialSuccesses_issueTrial (b : CircuitBreaker) :
    b.issueTrial.2.trialSuccesses = b.trialSuccesses := by
  unfold issueTrial
  split <;> rfl

@[simp] theorem openedAt_issueTrial (b : CircuitBreaker) :
    b.issueTrial.2.openedAt = b.openedAt := by
  unfold issueTrial
  split <;> rfl

/-- A breaker still waits as long as less than its waiting time has passed since it opened. -/
theorem hasWaited_eq_false_iff {b : CircuitBreaker} {now : Nat} :
    b.hasWaited now = false
      ↔ ∃ since, b.openedAt = some since ∧ now - since < b.settings.waitDurationMs := by
  unfold hasWaited
  cases b.openedAt with
  | none => simp
  | some since => simp [decide_eq_false_iff_not]

/-- **What asking does:** a closed breaker grants and stays as it is, an open one refuses or, after
its wait, becomes half-open first, and a half-open one issues a trial if there is one left. -/
theorem acquire_cases (b : CircuitBreaker) (now : Nat) :
    (b.state = .closed ∧ b.acquire now = (true, b))
      ∨ (b.state = .opened ∧ b.hasWaited now = false ∧ b.acquire now = (false, b))
      ∨ (b.state = .opened ∧ b.hasWaited now = true ∧ b.acquire now = b.halfOpen.issueTrial)
      ∨ (b.state = .halfOpen ∧ b.acquire now = b.issueTrial) := by
  -- `wake` only matters for an open breaker, and then the wait decides
  cases hstate : b.state with
  | closed =>
    refine .inl ⟨rfl, ?_⟩
    simp [acquire, wake, hstate]
  | opened =>
    cases hwait : b.hasWaited now with
    | false =>
      refine .inr (.inl ⟨rfl, rfl, ?_⟩)
      simp [acquire, wake, hstate, hwait]
    | true =>
      refine .inr (.inr (.inl ⟨rfl, rfl, ?_⟩))
      simp [acquire, wake, hstate, hwait, issueTrial]
  | halfOpen =>
    refine .inr (.inr (.inr ⟨rfl, ?_⟩))
    simp [acquire, wake, hstate, issueTrial]

/-! ## Outcomes -/

/-- An open breaker ignores outcomes. -/
theorem record_opened {b : CircuitBreaker} (h : b.state = .opened) (now : Nat) (failed : Bool) :
    b.record now failed = b := by
  simp [record, h]

/-- A closed breaker counts an outcome, and opens if the window asks for it. -/
theorem record_of_closed {b : CircuitBreaker} (h : b.state = .closed) (now : Nat) (failed : Bool) :
    b.record now failed
      = if b.settings.trips (b.window.record b.settings.slidingWindowSize failed) then
          { b with window := b.window.record b.settings.slidingWindowSize failed }.trip now
        else { b with window := b.window.record b.settings.slidingWindowSize failed } := by
  simp only [record, h]

/-- While the breaker is closed an outcome leaves it closed or opens it. -/
theorem record_closed {b : CircuitBreaker} (h : b.state = .closed) (now : Nat) (failed : Bool) :
    (b.record now failed).settings = b.settings
      ∧ ((b.record now failed).state = .closed ∨ (b.record now failed).state = .opened) := by
  simp only [record, h]
  split
  · exact ⟨rfl, .inr rfl⟩
  · exact ⟨rfl, .inl rfl⟩

/-- An outcome never changes the settings. -/
@[simp] theorem settings_record (b : CircuitBreaker) (now : Nat) (failed : Bool) :
    (b.record now failed).settings = b.settings := by
  cases hstate : b.state with
  | opened => rw [record_opened hstate]
  | closed => exact (record_closed hstate now failed).1
  | halfOpen =>
    -- a failure, the last success, or one of the others
    simp only [record, hstate]
    split
    · rfl
    · split <;> rfl

/-- **A failure while half-open** opens the breaker again. -/
theorem record_failure_halfOpen {b : CircuitBreaker} (h : b.state = .halfOpen) (now : Nat) :
    b.record now true = b.trip now := by
  simp [record, h]

/-- A success counts, and closes a half-open breaker when it is the last one needed. -/
theorem record_success_halfOpen {b : CircuitBreaker} (h : b.state = .halfOpen) (now : Nat) :
    b.record now false
      = if b.settings.permittedCallsInHalfOpenState ≤ b.trialSuccesses + 1 then
          { b with trialSuccesses := b.trialSuccesses + 1 }.close
        else { b with trialSuccesses := b.trialSuccesses + 1 } := by
  simp only [record, h]
  rfl

/-! ## Handing back -/

@[simp] theorem settings_release (b : CircuitBreaker) : b.release.settings = b.settings := by
  unfold release
  split <;> rfl

/-- A permission that is handed back leaves the state as it is. -/
@[simp] theorem state_release (b : CircuitBreaker) : b.release.state = b.state := by
  unfold release
  split <;> rfl

@[simp] theorem openedAt_release (b : CircuitBreaker) : b.release.openedAt = b.openedAt := by
  unfold release
  split <;> rfl

/-- A trial that is handed back has not succeeded. -/
@[simp] theorem trialSuccesses_release (b : CircuitBreaker) :
    b.release.trialSuccesses = b.trialSuccesses := by
  unfold release
  split <;> rfl

end Gatehouse.Breaker.CircuitBreaker
