/-
When a breaker admits a caller.

A half-open breaker refuses once it has given out all its trials, and then only the settlement of a
call frees one or ends the period. If its count stood for trials that no longer run, it would refuse
for good. It never does: a half-open breaker without a trial left has a trial that is still running
(`exists_running_of_full`). The count is at most the trials that run or have succeeded in the
period, stray releases or not, and those that have succeeded are fewer than were permitted, since
with the last of them the breaker would have closed.

So a breaker whose calls are all settled refuses in one case only, while it is open and waits.
-/
import Gatehouse.Proofs.Breaker.TrialBudget

set_option autoImplicit false

namespace Gatehouse.Breaker

/-- An open breaker whose waiting time has not passed. -/
def CircuitBreaker.IsWaiting (b : CircuitBreaker) (now : Nat) : Prop :=
  b.state = .opened ∧ ∃ since, b.openedAt = some since ∧ now - since < b.settings.waitDurationMs

namespace Callers

open CircuitBreaker

/-! ## Trials that hold up a half-open breaker -/

/-- Every trial of a period that has succeeded while the period lasts is a success of the period. -/
theorem Tracked.trialsSucceeded_le {settings : Settings} {s : Callers} (h : Tracked settings s)
    (hhalf : s.breaker.state = .halfOpen) :
    s.trialsSucceeded s.periods ≤ s.successesIn s.periods := by
  refine List.countP_mono_left fun call hcall htrial => ?_
  obtain ⟨hadmitted, hhow⟩ := of_decide_eq_true htrial
  obtain ⟨o, ho, hsuccess⟩ := Option.map_eq_some_iff.1 hhow
  have hperiod := h.trial_settled hhalf call hcall hadmitted o ho
  refine decide_eq_true ?_
  rw [ho, ← hsuccess, ← hperiod]

/-- **A half-open breaker without a trial left has one that is running.** -/
theorem exists_running_of_full (settings : Settings)
    (hpos : 1 ≤ settings.permittedCallsInHalfOpenState) (actions : List CallerAction)
    (hhalf : (run settings actions).breaker.state = .halfOpen)
    (hfull : settings.permittedCallsInHalfOpenState ≤ (run settings actions).breaker.trialsIssued) :
    ∃ call ∈ (run settings actions).calls,
      call.admittedIn = some (run settings actions).periods ∧ call.outcome = none := by
  have htracked := tracked_run settings hpos actions
  have hbudget := inBudget_run settings hpos actions hhalf
  generalize run settings actions = s at *
  have hrunning : 0 < s.trialsRunning s.periods := by
    have hissued : s.breaker.trialsIssued
        ≤ s.trialsRunning s.periods + s.trialsSucceeded s.periods :=
      hbudget.issued_le_held
    have hsucceeded := htracked.trialsSucceeded_le hhalf
    rw [← htracked.successes hhalf] at hsucceeded
    have hfew := htracked.few hhalf
    omega
  obtain ⟨call, hcall, htrial⟩ := List.countP_pos_iff.1 hrunning
  exact ⟨call, hcall, of_decide_eq_true htrial⟩

/-! ## Admission -/

/-- A breaker refuses a caller only while it waits, or when it is half-open without a trial left. -/
theorem granted_acquire_iff {b : CircuitBreaker}
    (hpos : 1 ≤ b.settings.permittedCallsInHalfOpenState) (now : Nat) :
    (b.acquire now).1 = true
      ↔ ¬b.IsWaiting now
        ∧ (b.state = .halfOpen → b.trialsIssued < b.settings.permittedCallsInHalfOpenState) := by
  rcases b.acquire_cases now with ⟨hs, heq⟩ | ⟨hs, hwait, heq⟩ | ⟨hs, hwaited, heq⟩ | ⟨hs, heq⟩
  · rw [heq, IsWaiting, hs]
    simp
  · have hwaiting : b.IsWaiting now := ⟨hs, hasWaited_eq_false_iff.1 hwait⟩
    rw [heq]
    exact ⟨nofun, fun h => absurd hwaiting h.1⟩
  · have hnot : ¬b.IsWaiting now := by
      rintro ⟨-, hwaiting⟩
      rw [hasWaited_eq_false_iff.2 hwaiting] at hwaited
      cases hwaited
    -- a period begins with all its trials
    have hissue := issueTrial_of_room (b := b.halfOpen) hpos
    rw [heq, hissue]
    exact ⟨fun _ => ⟨hnot, fun hhalf => absurd (hs.symm.trans hhalf) nofun⟩, fun _ => rfl⟩
  · have hnot : ¬b.IsWaiting now := fun hwaiting => absurd (hs.symm.trans hwaiting.1) nofun
    rw [heq, issueTrial]
    split
    · rename_i hroom
      exact ⟨fun _ => ⟨hnot, fun _ => hroom⟩, fun _ => rfl⟩
    · rename_i hfull
      exact ⟨nofun, fun h => absurd (h.2 hs) hfull⟩

/-- **A breaker never gets stuck.** After every run of callers who settle each call at most once,
at any later time, a breaker whose calls are all settled admits the next caller, unless it is
open and waits. -/
theorem admits_iff_not_waiting (settings : Settings)
    (hpos : 1 ≤ settings.permittedCallsInHalfOpenState) (actions : List CallerAction)
    (hsettled : ∀ call ∈ (run settings actions).calls, call.outcome ≠ none) (now : Nat) :
    ((run settings actions).breaker.acquire now).1 = true
      ↔ ¬(run settings actions).breaker.IsWaiting now := by
  have hsettings := (tracked_run settings hpos actions).settings_eq
  have hroom : (run settings actions).breaker.state = .halfOpen →
      (run settings actions).breaker.trialsIssued
        < (run settings actions).breaker.settings.permittedCallsInHalfOpenState := by
    intro hhalf
    rw [hsettings]
    by_contra hfull
    obtain ⟨call, hcall, -, hopen⟩ :=
      exists_running_of_full settings hpos actions hhalf (Nat.le_of_not_lt hfull)
    exact hsettled call hcall hopen
  rw [granted_acquire_iff (by rwa [hsettings])]
  exact and_iff_left hroom

/-- Three calls are admitted and the first one fails; two trials are admitted, one succeeds and the
other one and both old calls are released. -/
def lateReleases : List CallerAction :=
  [.ask 0, .ask 0, .ask 0, .settle 0 .failure 0, .ask 0, .ask 0, .settle 3 .success 0,
    .settle 1 .release 0, .settle 2 .release 0, .settle 4 .release 0]

/-- The count has gone down by more than the trials that were handed back, and the
breaker admits. -/
theorem admits_iff_not_waiting_lateReleases :
    1 ≤ twoTrials.permittedCallsInHalfOpenState
      ∧ (∀ call ∈ (run twoTrials lateReleases).calls, call.outcome ≠ none)
      ∧ (run twoTrials lateReleases).breaker.state = .halfOpen
      ∧ ((run twoTrials lateReleases).breaker.acquire 0).1 = true := by
  have hpos : 1 ≤ twoTrials.permittedCallsInHalfOpenState := by decide
  have hsettled : ∀ call ∈ (run twoTrials lateReleases).calls, call.outcome ≠ none := by decide
  have hhalf : (run twoTrials lateReleases).breaker.state = .halfOpen := by decide
  refine ⟨hpos, hsettled, hhalf, ?_⟩
  refine (admits_iff_not_waiting twoTrials hpos lateReleases hsettled 0).2 fun hwaiting => ?_
  exact absurd (hhalf.symm.trans hwaiting.1) nofun

end Callers
end Gatehouse.Breaker
