/-
How many trials a half-open period admits.

A half-open breaker counts the trial permissions that are out and admits no more than were
permitted. A permission that is handed back lowers the count, whoever hands it back: a call that was
admitted before the period frees a trial that it never used. So the trials that run or have
succeeded can be more than were permitted, by at most one for each such release, and they can be so
exactly when a call from before the period was still unsettled as it began.

The work is in `HalfOpenStep`, the list of what a step can do that leaves the breaker half-open, and
in `Budgeted`, which compares the breaker's count with the trials it stands for. That the bound can
really be broken is shown by carrying it out: callers ask until all trials are taken, the old call
is released, and one more trial is admitted.
-/
import Gatehouse.Proofs.Breaker.HalfOpen

set_option autoImplicit false

namespace Gatehouse.Breaker.Callers

open CircuitBreaker
open Gatehouse.Pipeline (Settlement)

/-! ## Counting trials and stray releases -/

/-- How many calls that were admitted in a period are not settled yet. -/
def trialsRunning (s : Callers) (p : Nat) : Nat :=
  s.calls.countP fun call => call.admittedIn = some p ∧ call.outcome = none

/-- How many calls that were not admitted in a period handed their permission back in it. -/
def strayReleases (s : Callers) (p : Nat) : Nat :=
  s.calls.countP fun call =>
    call.admittedIn ≠ some p ∧ call.outcome = some { how := .release, period := some p }

/-- **Trials of a period** that are running or have succeeded. -/
def trialsHeld (s : Callers) (p : Nat) : Nat := s.trialsRunning p + s.trialsSucceeded p

theorem countP_set_add {calls : List Call} {i : Nat} {old : Call} (h : calls[i]? = some old)
    (new : Call) (P : Call → Bool) :
    (calls.set i new).countP P + (if P old then 1 else 0)
      = calls.countP P + if P new then 1 else 0 := by
  obtain ⟨hi, hget⟩ := List.getElem?_eq_some_iff.1 h
  have hcount := List.countP_set (p := P) (a := new) hi
  rw [hget] at hcount
  by_cases hold : P old = true
  · have hpos : 0 < calls.countP P := List.countP_pos_iff.2 ⟨old, List.mem_of_getElem? h, hold⟩
    rw [if_pos hold] at hcount ⊢
    omega
  · rw [if_neg hold] at hcount ⊢
    omega

/-- A call that has just been admitted is a trial if it was admitted in the period. -/
theorem trialsHeld_admitted {s after : Callers} {p : Nat} {call : Call}
    (hnone : call.outcome = none) (hcalls : after.calls = s.calls ++ [call]) :
    after.trialsHeld p = s.trialsHeld p + if call.admittedIn = some p then 1 else 0 := by
  unfold trialsHeld trialsRunning trialsSucceeded
  rw [hcalls]
  by_cases h : call.admittedIn = some p
  · simp [List.countP_append, hnone, h]
    omega
  · simp [List.countP_append, hnone, h]

theorem strayReleases_admitted {s after : Callers} {p : Nat} {call : Call}
    (hnone : call.outcome = none) (hcalls : after.calls = s.calls ++ [call]) :
    after.strayReleases p = s.strayReleases p := by
  unfold strayReleases
  rw [hcalls]
  simp [List.countP_append, hnone]

section

variable {s after : Callers} {p i : Nat} {call : Call} {how : Settlement}

/-- A trial stays held unless it is handed back. -/
theorem trialsHeld_settle (hcall : s.calls[i]? = some call) (hnone : call.outcome = none)
    (hhow : how ≠ .failure)
    (hcalls : after.calls = s.calls.set i { call with outcome := some { how, period := some p } }) :
    after.trialsHeld p + (if call.admittedIn = some p ∧ how = .release then 1 else 0)
      = s.trialsHeld p := by
  have hrunning := countP_set_add hcall { call with outcome := some { how, period := some p } }
    fun call => call.admittedIn = some p ∧ call.outcome = none
  have hsucceeded := countP_set_add hcall { call with outcome := some { how, period := some p } }
    fun call => call.admittedIn = some p ∧ call.outcome.map (·.how) = some .success
  unfold trialsHeld trialsRunning trialsSucceeded
  rw [hcalls]
  by_cases hadmitted : call.admittedIn = some p
  · cases how with
    | failure => exact absurd rfl hhow
    | success =>
      simp [hadmitted, hnone] at hrunning hsucceeded ⊢
      omega
    | release =>
      simp [hadmitted, hnone] at hrunning hsucceeded ⊢
      omega
  · simp [hadmitted] at hrunning hsucceeded ⊢
    omega

theorem strayReleases_settle (hcall : s.calls[i]? = some call) (hnone : call.outcome = none)
    (hcalls : after.calls = s.calls.set i { call with outcome := some { how, period := some p } }) :
    after.strayReleases p
      = s.strayReleases p + if call.admittedIn ≠ some p ∧ how = .release then 1 else 0 := by
  have hcount := countP_set_add hcall { call with outcome := some { how, period := some p } }
    fun call => call.admittedIn ≠ some p ∧ call.outcome = some { how := .release, period := some p }
  unfold strayReleases
  rw [hcalls]
  simpa [hnone] using hcount

end

/-! ## Steps of a half-open breaker -/

/-- **What a step can do that leaves the breaker half-open.** -/
inductive HalfOpenStep (s : Callers) (a : CallerAction) (after : Callers) : Prop where
  /-- The period begins, with its first trial. -/
  | begins (now : Nat) (hask : a = .ask now) (hopened : s.breaker.state = .opened)
      (hperiods : after.periods = s.periods + 1)
      (hissued : after.breaker.trialsIssued = 1)
      (hcalls : after.calls = s.calls ++ [{ admittedIn := some after.periods, outcome := none }])
  /-- A caller is refused, or there is nothing to settle. -/
  | idles (hhalf : s.breaker.state = .halfOpen) (hperiods : after.periods = s.periods)
      (hissued : after.breaker.trialsIssued = s.breaker.trialsIssued)
      (hcalls : after.calls = s.calls)
  | admits (hhalf : s.breaker.state = .halfOpen) (hperiods : after.periods = s.periods)
      (hroom : s.breaker.trialsIssued < s.breaker.settings.permittedCallsInHalfOpenState)
      (hissued : after.breaker.trialsIssued = s.breaker.trialsIssued + 1)
      (hcalls : after.calls = s.calls ++ [{ admittedIn := some s.periods, outcome := none }])
  /-- A call is settled without a failure. Only a release changes the count. -/
  | settles (hhalf : s.breaker.state = .halfOpen) (hperiods : after.periods = s.periods) (i : Nat)
      (call : Call) (how : Settlement) (hcall : s.calls[i]? = some call)
      (hnone : call.outcome = none) (hhow : how ≠ .failure)
      (hissued : after.breaker.trialsIssued
        = if how = .release then s.breaker.trialsIssued - 1 else s.breaker.trialsIssued)
      (hcalls : after.calls
        = s.calls.set i { call with outcome := some { how, period := some s.periods } })

theorem issueTrial_of_room {b : CircuitBreaker}
    (hroom : b.trialsIssued < b.settings.permittedCallsInHalfOpenState) :
    b.issueTrial = (true, { b with trialsIssued := b.trialsIssued + 1 }) := by
  rw [issueTrial, if_pos hroom]

/-- The same with some more trials. -/
def withTrials (s : Callers) (k : Nat) : Callers :=
  { s with
    breaker := { s.breaker with trialsIssued := s.breaker.trialsIssued + k }
    calls := s.calls ++ List.replicate k { admittedIn := some s.periods, outcome := none } }

/-- A half-open breaker with trials left admits the caller. -/
theorem step_ask_of_room {s : Callers} (hhalf : s.breaker.state = .halfOpen)
    (hroom : s.breaker.trialsIssued < s.breaker.settings.permittedCallsInHalfOpenState)
    (now : Nat) :
    s.step (.ask now) = s.withTrials 1 := by
  have hacquire : s.breaker.acquire now
      = (true, { s.breaker with trialsIssued := s.breaker.trialsIssued + 1 }) := by
    rcases s.breaker.acquire_cases now with ⟨hs, -⟩ | ⟨hs, -⟩ | ⟨hs, -⟩ | ⟨-, heq⟩
    · rw [hhalf] at hs
      cases hs
    · rw [hhalf] at hs
      cases hs
    · rw [hhalf] at hs
      cases hs
    · rw [heq, issueTrial_of_room hroom]
  rw [step, ask, hacquire, if_pos rfl, advance_of_imp fun _ => hhalf]
  simp [withTrials, period, hhalf]

theorem trialsIssued_perform_settlement {b : CircuitBreaker} (hhalf : b.state = .halfOpen)
    {how : Settlement} {now : Nat} (hafter : (b.perform now how.operation).2.state = .halfOpen) :
    (b.perform now how.operation).2.trialsIssued
      = if how = .release then b.trialsIssued - 1 else b.trialsIssued := by
  cases how with
  | failure =>
    change (b.record now true).state = .halfOpen at hafter
    rw [record_failure_halfOpen hhalf] at hafter
    cases hafter
  | release =>
    change b.release.trialsIssued = b.trialsIssued - 1
    simp [release, hhalf]
  | success =>
    change (b.record now false).state = .halfOpen at hafter
    change (b.record now false).trialsIssued = b.trialsIssued
    rw [record_success_halfOpen hhalf] at hafter ⊢
    split at hafter
    · cases hafter
    · rename_i hfew
      rw [if_neg hfew]

/-- **Every step after which the breaker is half-open** is one of these. -/
theorem halfOpenStep {s : Callers} (hpos : 1 ≤ s.breaker.settings.permittedCallsInHalfOpenState)
    {a : CallerAction} (hafter : (s.step a).breaker.state = .halfOpen) :
    HalfOpenStep s a (s.step a) := by
  cases a with
  | ask now =>
    rcases s.breaker.acquire_cases now with ⟨hs, heq⟩ | ⟨hs, -, heq⟩ | ⟨hs, -, heq⟩ | ⟨hs, heq⟩
    · -- a closed breaker stays closed, and an open one that refuses stays open
      have hstate : (s.step (.ask now)).breaker.state = .closed := by
        rw [step, ask, heq]
        exact hs
      rw [hstate] at hafter
      cases hafter
    · have hstate : (s.step (.ask now)).breaker.state = .opened := by
        rw [step, ask, heq]
        exact hs
      rw [hstate] at hafter
      cases hafter
    · have hadvance : s.advance s.breaker.halfOpen.issueTrial.2
          = { s with breaker := s.breaker.halfOpen.issueTrial.2, periods := s.periods + 1 } := by
        rw [advance, if_pos]
        exact ⟨by rw [hs]; decide, by simp⟩
      have hissue : s.breaker.halfOpen.issueTrial
          = (true,
              { s.breaker.halfOpen with trialsIssued := s.breaker.halfOpen.trialsIssued + 1 }) :=
        issueTrial_of_room hpos
      have hstep : s.step (.ask now)
          = { breaker := { s.breaker.halfOpen with trialsIssued := 1 }
              periods := s.periods + 1
              calls := s.calls ++ [{ admittedIn := some (s.periods + 1), outcome := none }] } := by
        rw [step, ask, heq, hadvance, hissue, if_pos rfl]
        rfl
      rw [hstep]
      exact .begins now rfl hs rfl rfl rfl
    · by_cases hroom : s.breaker.trialsIssued < s.breaker.settings.permittedCallsInHalfOpenState
      · rw [step_ask_of_room hs hroom]
        exact .admits hs rfl hroom rfl rfl
      · have hrefused : s.breaker.issueTrial = (false, s.breaker) := by
          rw [issueTrial, if_neg hroom]
        have hstep : s.step (.ask now) = s := by
          rw [step, ask, heq, hrefused, if_neg Bool.false_ne_true, advance_of_imp fun _ => hs]
        rw [hstep]
        exact .idles hs rfl rfl rfl
  | settle i how now =>
    rcases s.settle_cases i how now with ⟨heq, -⟩ | ⟨call, hcall, hnone, heq⟩
    · rw [step, heq] at hafter ⊢
      exact .idles hafter rfl rfl rfl
    · have hperform : (s.breaker.perform now how.operation).2.state = .halfOpen := by
        rw [step, heq] at hafter
        exact hafter
      have hhalf := (perform_settlement_halfOpen hperform).1
      have hhow : how ≠ .failure := by
        rintro rfl
        rw [state_perform_settlement_of_halfOpen hhalf] at hperform
        cases hperform
      rw [step_settle_of_halfOpen hhalf hcall hnone]
      exact .settles hhalf rfl i call how hcall hnone hhow
        (trialsIssued_perform_settlement hhalf hperform) rfl

/-! ## The count and the trials it stands for -/

/-- **The count of a half-open breaker:** no more is given out than may be, the count is no higher
than the trials it stands for, and it is lower by one at most for each stray release. -/
structure InBudget (settings : Settings) (s : Callers) : Prop where
  issued_le : s.breaker.trialsIssued ≤ settings.permittedCallsInHalfOpenState
  issued_le_held : s.breaker.trialsIssued ≤ s.trialsHeld s.periods
  held_le : s.trialsHeld s.periods ≤ s.breaker.trialsIssued + s.strayReleases s.periods

/-- Nothing counts for a period that has not begun. -/
theorem Tracked.counts_eq_zero {settings : Settings} {s : Callers} (h : Tracked settings s)
    {p : Nat} (hp : s.periods < p) : s.trialsHeld p = 0 ∧ s.strayReleases p = 0 := by
  have hnot : ∀ call ∈ s.calls, call.admittedIn ≠ some p := by
    intro call hcall hadmitted
    have := h.admitted_le call hcall p hadmitted
    omega
  have hrunning : s.trialsRunning p = 0 := by
    rw [trialsRunning, List.countP_eq_zero]
    intro call hcall htrial
    exact hnot call hcall (of_decide_eq_true htrial).1
  have hsucceeded : s.trialsSucceeded p = 0 := by
    rw [trialsSucceeded, List.countP_eq_zero]
    intro call hcall htrial
    exact hnot call hcall (of_decide_eq_true htrial).1
  refine ⟨by rw [trialsHeld, hrunning, hsucceeded], ?_⟩
  rw [strayReleases, List.countP_eq_zero]
  intro call hcall hstray
  have := h.settled_le call hcall _ (of_decide_eq_true hstray).2 p rfl
  omega

theorem HalfOpenStep.inBudget {settings : Settings} {s after : Callers} {a : CallerAction}
    (hstep : HalfOpenStep s a after)
    (htracked : Tracked settings s) (hpos : 1 ≤ settings.permittedCallsInHalfOpenState)
    (h : s.breaker.state = .halfOpen → InBudget settings s) : InBudget settings after := by
  have hsettings := htracked.settings_eq
  cases hstep with
  | begins now hask hopened hperiods hissued hcalls =>
    obtain ⟨hheld, hstray⟩ := htracked.counts_eq_zero (p := after.periods) (by omega)
    have hone := trialsHeld_admitted (p := after.periods) rfl hcalls
    rw [if_pos rfl, hheld] at hone
    exact ⟨by omega, by omega, by omega⟩
  | idles hhalf hperiods hissued hcalls =>
    obtain ⟨hle, hheld, hstray⟩ := h hhalf
    refine ⟨by omega, ?_, ?_⟩
    · rw [hissued, hperiods, trialsHeld, trialsRunning, trialsSucceeded, hcalls]
      exact hheld
    · rw [hissued, hperiods, trialsHeld, trialsRunning, trialsSucceeded, strayReleases, hcalls]
      exact hstray
  | admits hhalf hperiods hroom hissued hcalls =>
    obtain ⟨hle, hheld, hstray⟩ := h hhalf
    have hone := trialsHeld_admitted (p := s.periods) rfl hcalls
    have hnone := strayReleases_admitted (p := s.periods) rfl hcalls
    rw [if_pos rfl] at hone
    rw [hsettings] at hroom
    refine ⟨by omega, ?_, ?_⟩
    · rw [hperiods]
      omega
    · rw [hperiods]
      omega
  | settles hhalf hperiods i call how hcall hnone hhow hissued hcalls =>
    obtain ⟨hle, hheld, hstray⟩ := h hhalf
    have hsettled := trialsHeld_settle hcall hnone hhow hcalls
    have hreleased := strayReleases_settle hcall hnone hcalls
    rw [← hperiods] at hsettled hreleased hheld hstray
    -- a trial that is handed back goes from both sides, a stray release from the count alone
    by_cases hrelease : how = .release
    · by_cases hadmitted : call.admittedIn = some after.periods
      · simp only [hrelease, hadmitted, ne_eq, not_true_eq_false, and_true, if_true,
          if_false] at hsettled hreleased hissued
        exact ⟨by omega, by omega, by omega⟩
      · simp only [hrelease, hadmitted, ne_eq, not_false_eq_true, and_true, if_true, if_false]
          at hsettled hreleased hissued
        exact ⟨by omega, by omega, by omega⟩
    · simp only [hrelease, and_false, if_false] at hsettled hreleased hissued
      exact ⟨by omega, by omega, by omega⟩

/-- **Along every run** the count of a half-open breaker is in budget. -/
theorem inBudget_run (settings : Settings) (hpos : 1 ≤ settings.permittedCallsInHalfOpenState)
    (actions : List CallerAction) (hhalf : (run settings actions).breaker.state = .halfOpen) :
    InBudget settings (run settings actions) := by
  induction actions using List.reverseRecOn with
  | nil => cases hhalf
  | append_singleton actions a ih =>
    have htracked := tracked_run settings hpos actions
    rw [run_append] at hhalf ⊢
    have hstep := halfOpenStep (by rw [htracked.settings_eq]; exact hpos) hhalf
    exact hstep.inBudget htracked hpos ih

/-! ## The beginning of a period -/

theorem period_eq_some_iff {s : Callers} {p : Nat} :
    s.period = some p ↔ s.breaker.state = .halfOpen ∧ s.periods = p := by
  unfold period
  by_cases h : s.breaker.state = .halfOpen
  · rw [if_pos h]
    exact ⟨fun heq => ⟨h, Option.some.inj heq⟩, fun heq => congrArg some heq.2⟩
  · rw [if_neg h]
    exact ⟨nofun, fun heq => absurd heq.1 h⟩

theorem periods_le_advance (s : Callers) (after : CircuitBreaker) :
    s.periods ≤ (s.advance after).periods := by
  unfold advance
  dsimp only
  split <;> omega

theorem periods_le_step (s : Callers) (a : CallerAction) : s.periods ≤ (s.step a).periods := by
  cases a with
  | ask now =>
    have h := s.periods_le_advance (s.breaker.acquire now).2
    rw [step, ask]
    split
    · exact h
    · exact h
  | settle i how now =>
    rcases s.settle_cases i how now with ⟨heq, -⟩ | ⟨call, hcall, hnone, heq⟩
    · exact Nat.le_of_eq (congrArg periods heq.symm)
    · rw [step, heq]
      exact s.periods_le_advance _

/-- All that happens after a list of actions, in one go. -/
theorem run_append_all (settings : Settings) (actions more : List CallerAction) :
    run settings (actions ++ more) = more.foldl step (run settings actions) := by
  rw [run, List.foldl_append]
  rfl

theorem periods_le_run (settings : Settings) (actions more : List CallerAction) :
    (run settings actions).periods ≤ (run settings (actions ++ more)).periods := by
  induction more using List.reverseRecOn with
  | nil => exact Nat.le_of_eq (by rw [List.append_nil])
  | append_singleton more a ih =>
    rw [← List.append_assoc, run_append]
    exact Nat.le_trans ih (periods_le_step _ a)

/-- **A half-open period begins** after some actions, as a caller asks. -/
def Begins (settings : Settings) (before : List CallerAction) (now p : Nat) : Prop :=
  (run settings before).breaker.state = .opened
    ∧ (run settings (before ++ [.ask now])).period = some p

theorem HalfOpenStep.periods_eq {s after : Callers} {a : CallerAction} (h : HalfOpenStep s a after)
    (hhalf : s.breaker.state = .halfOpen) : after.periods = s.periods := by
  cases h with
  | begins now hask hopened =>
    rw [hopened] at hhalf
    cases hhalf
  | idles _ hperiods => exact hperiods
  | admits _ hperiods => exact hperiods
  | settles _ hperiods => exact hperiods

/-- A period goes on from a step to the next one, or it begins. -/
theorem period_cases (settings : Settings) (hpos : 1 ≤ settings.permittedCallsInHalfOpenState)
    (actions : List CallerAction) (a : CallerAction) {p : Nat}
    (hperiod : (run settings (actions ++ [a])).period = some p) :
    (run settings actions).period = some p
      ∨ ∃ now, a = .ask now ∧ Begins settings actions now p := by
  obtain ⟨hhalf, hperiods⟩ := period_eq_some_iff.1 hperiod
  have hsettings := (tracked_run settings hpos actions).settings_eq
  have hstep : HalfOpenStep (run settings actions) a (run settings (actions ++ [a])) := by
    rw [run_append] at hhalf ⊢
    exact halfOpenStep (by rw [hsettings]; exact hpos) hhalf
  by_cases hbefore : (run settings actions).breaker.state = .halfOpen
  · refine .inl (period_eq_some_iff.2 ⟨hbefore, ?_⟩)
    rw [← hstep.periods_eq hbefore, hperiods]
  · cases hstep with
    | begins now hask hopened =>
      refine .inr ⟨now, hask, hopened, ?_⟩
      rw [← hask]
      exact hperiod
    | idles hs => exact absurd hs hbefore
    | admits hs => exact absurd hs hbefore
    | settles hs => exact absurd hs hbefore

theorem exists_begins (settings : Settings) (hpos : 1 ≤ settings.permittedCallsInHalfOpenState)
    (actions : List CallerAction) {p : Nat} (hperiod : (run settings actions).period = some p) :
    ∃ before now more, actions = before ++ .ask now :: more ∧ Begins settings before now p := by
  induction actions using List.reverseRecOn with
  | nil => cases hperiod
  | append_singleton actions a ih =>
    rcases period_cases settings hpos actions a hperiod with hbefore | ⟨now, rfl, hbegins⟩
    · obtain ⟨before, now, more, rfl, hbegins⟩ := ih hbefore
      exact ⟨before, now, more ++ [a], by simp, hbegins⟩
    · exact ⟨actions, now, [], rfl, hbegins⟩

section

variable {settings : Settings} {before : List CallerAction} {now p : Nat}

/-- What there is at the beginning of a period: the calls from before it, and its first trial. -/
theorem Begins.first (h : Begins settings before now p)
    (hpos : 1 ≤ settings.permittedCallsInHalfOpenState) :
    (run settings (before ++ [.ask now])).breaker.trialsIssued = 1
      ∧ (run settings (before ++ [.ask now])).calls
        = (run settings before).calls ++ [{ admittedIn := some p, outcome := none }]
      ∧ (run settings before).periods < p := by
  obtain ⟨hopened, hperiod⟩ := h
  obtain ⟨hhalf, hperiods⟩ := period_eq_some_iff.1 hperiod
  have hsettings := (tracked_run settings hpos before).settings_eq
  rw [run_append] at hhalf hperiods ⊢
  have hstep := halfOpenStep (by rw [hsettings]; exact hpos) hhalf
  have hnot : ¬(run settings before).breaker.state = .halfOpen := by
    rw [hopened]
    decide
  cases hstep with
  | begins other hask _ hnext hissued hcalls =>
    rw [hperiods] at hnext hcalls
    exact ⟨hissued, hcalls, by omega⟩
  | idles hs => exact absurd hs hnot
  | admits hs => exact absurd hs hnot
  | settles hs => exact absurd hs hnot

/-- A period that goes on after some actions went on before the last one of them. -/
theorem Begins.period_of_append (h : Begins settings before now p)
    (hpos : 1 ≤ settings.permittedCallsInHalfOpenState) {others : List CallerAction}
    {a : CallerAction}
    (hperiod : (run settings (before ++ .ask now :: (others ++ [a]))).period = some p) :
    (run settings (before ++ .ask now :: others)).period = some p := by
  have hlist : before ++ .ask now :: (others ++ [a]) = (before ++ .ask now :: others) ++ [a] := by
    simp
  rw [hlist] at hperiod
  rcases period_cases settings hpos _ a hperiod with hbefore | ⟨later, rfl, hbegins⟩
  · exact hbefore
  · -- a period that begins now has a greater number
    have hfirst := (period_eq_some_iff.1 h.2).2
    have hless := (hbegins.first hpos).2.2
    have hle := periods_le_run settings (before ++ [.ask now]) others
    rw [hfirst, List.append_assoc] at hle
    exact absurd (Nat.lt_of_le_of_lt hle hless) (Nat.lt_irrefl p)

/-! ## When the budget is kept -/

/-- **Without calls from before the period** every call that is not settled is one of its trials,
and none is released that is not. -/
theorem Begins.no_stray (h : Begins settings before now p)
    (hpos : 1 ≤ settings.permittedCallsInHalfOpenState)
    (hsettled : ∀ call ∈ (run settings before).calls, call.outcome ≠ none)
    (others : List CallerAction)
    (hperiod : (run settings (before ++ .ask now :: others)).period = some p) :
    (∀ call ∈ (run settings (before ++ .ask now :: others)).calls, call.outcome = none →
        call.admittedIn = some p)
      ∧ (run settings (before ++ .ask now :: others)).strayReleases p = 0 := by
  induction others using List.reverseRecOn with
  | nil =>
    obtain ⟨-, hcalls, hlt⟩ := h.first hpos
    have hnone := strayReleases_admitted (p := p) rfl hcalls
    have hzero := ((tracked_run settings hpos before).counts_eq_zero hlt).2
    refine ⟨fun call hcall hopen => ?_, by rw [hnone, hzero]⟩
    rw [hcalls] at hcall
    rcases List.mem_append.1 hcall with hold | hnew
    · exact absurd hopen (hsettled call hold)
    · rw [List.mem_singleton.1 hnew]
  | append_singleton others a ih =>
    have hbefore := h.period_of_append hpos hperiod
    obtain ⟨hopen, hzero⟩ := ih hbefore
    obtain ⟨hhalfBefore, hperiodsBefore⟩ := period_eq_some_iff.1 hbefore
    have hlist : before ++ .ask now :: (others ++ [a]) = (before ++ .ask now :: others) ++ [a] := by
      simp
    rw [hlist, run_append] at hperiod ⊢
    obtain ⟨hhalf, hperiods⟩ := period_eq_some_iff.1 hperiod
    have hsettings := (tracked_run settings hpos (before ++ .ask now :: others)).settings_eq
    have hstep := halfOpenStep (by rw [hsettings]; exact hpos) hhalf
    cases hstep with
    | begins later hask hopened =>
      rw [hopened] at hhalfBefore
      cases hhalfBefore
    | idles _ _ _ hcalls =>
      rw [strayReleases, hcalls]
      exact ⟨hopen, hzero⟩
    | admits _ _ _ _ hcalls =>
      rw [hperiodsBefore] at hcalls
      refine ⟨fun call hcall hnone => ?_, ?_⟩
      · rw [hcalls] at hcall
        rcases List.mem_append.1 hcall with hold | hnew
        · exact hopen call hold hnone
        · rw [List.mem_singleton.1 hnew]
      · rw [strayReleases_admitted rfl hcalls, hzero]
    | settles _ _ i call how hcall hnone _ _ hcalls =>
      rw [hperiodsBefore] at hcalls
      have htrial := hopen call (List.mem_of_getElem? hcall) hnone
      refine ⟨fun other hother hunsettled => ?_, ?_⟩
      · rw [hcalls] at hother
        rcases List.mem_or_eq_of_mem_set hother with hold | rfl
        · exact hopen other hold hunsettled
        · cases hunsettled
      · rw [strayReleases_settle hcall hnone hcalls, hzero, if_neg]
        rintro ⟨hstray, -⟩
        exact hstray htrial

end

/-! ## When it is broken -/

/-- Callers that ask take the trials that are left. -/
theorem foldl_ask_of_room {s : Callers} (hhalf : s.breaker.state = .halfOpen) (now k : Nat)
    (hroom : s.breaker.trialsIssued + k ≤ s.breaker.settings.permittedCallsInHalfOpenState) :
    (List.replicate k (.ask now)).foldl step s = s.withTrials k := by
  induction k with
  | zero => simp [withTrials]
  | succ k ih =>
    have hnext : (s.withTrials k).step (.ask now) = (s.withTrials k).withTrials 1 :=
      step_ask_of_room (s := s.withTrials k) hhalf hroom now
    rw [List.replicate_succ', List.foldl_append, ih (by omega), List.foldl_cons,
      List.foldl_nil, hnext]
    simp [withTrials, List.replicate_succ', Nat.add_assoc]

theorem trialsHeld_withTrials (s : Callers) (k : Nat) :
    (s.withTrials k).trialsHeld s.periods = s.trialsHeld s.periods + k := by
  unfold trialsHeld trialsRunning trialsSucceeded withTrials
  simp [List.countP_append, List.countP_replicate]
  omega

theorem step_release_of_halfOpen {s : Callers} (hhalf : s.breaker.state = .halfOpen) {i : Nat}
    {call : Call} (hcall : s.calls[i]? = some call) (hnone : call.outcome = none) (now : Nat) :
    s.step (.settle i .release now)
      = { s with
          breaker := { s.breaker with trialsIssued := s.breaker.trialsIssued - 1 }
          calls := s.calls.set i { call with
            outcome := some { how := .release, period := some s.periods } } } := by
  have hrelease : s.breaker.release
      = { s.breaker with trialsIssued := s.breaker.trialsIssued - 1 } := by
    rw [release, if_pos hhalf]
  rw [step_settle_of_halfOpen hhalf hcall hnone]
  change { s with breaker := s.breaker.release, calls := _ } = _
  rw [hrelease]

/-- Callers ask some times, a call is released, and another caller asks. -/
def askReleaseAsk (k i now : Nat) : List CallerAction :=
  List.replicate k (.ask now) ++ [.settle i .release now, .ask now]

/-- **A call from outside the period makes room for a trial too many** when it is released after all
trials have been taken. -/
theorem foldl_over_budget {s : Callers} (hhalf : s.breaker.state = .halfOpen) {i : Nat}
    {call : Call} (hcall : s.calls[i]? = some call) (hnone : call.outcome = none)
    (hstray : call.admittedIn ≠ some s.periods) (now : Nat) {k : Nat}
    (hissued : 1 ≤ s.breaker.trialsIssued)
    (hall : s.breaker.trialsIssued + k = s.breaker.settings.permittedCallsInHalfOpenState) :
    let after := (askReleaseAsk k i now).foldl step s
    after.period = some s.periods
      ∧ after.trialsHeld s.periods = s.trialsHeld s.periods + k + 1 := by
  intro after
  have hfull : (List.replicate k (.ask now)).foldl step s = s.withTrials k :=
    foldl_ask_of_room hhalf now k (Nat.le_of_eq hall)
  have hfullCall : (s.withTrials k).calls[i]? = some call := by
    rw [← hcall]
    exact List.getElem?_append_left (List.getElem?_eq_some_iff.1 hcall).1
  have hfreed := step_release_of_halfOpen (s := s.withTrials k) hhalf hfullCall hnone now
  generalize hfreedState : (s.withTrials k).step (.settle i .release now) = freed at hfreed
  have hfreedHalf : freed.breaker.state = .halfOpen := by
    rw [hfreed]
    exact hhalf
  have hperiods : freed.periods = s.periods := by
    rw [hfreed]
    rfl
  have hroom : freed.breaker.trialsIssued
      < freed.breaker.settings.permittedCallsInHalfOpenState := by
    rw [hfreed]
    change s.breaker.trialsIssued + k - 1 < s.breaker.settings.permittedCallsInHalfOpenState
    omega
  have hafter : after = freed.withTrials 1 := by
    change (askReleaseAsk k i now).foldl step s = _
    rw [askReleaseAsk, List.foldl_append, hfull, List.foldl_cons, hfreedState, List.foldl_cons,
      List.foldl_nil, step_ask_of_room hfreedHalf hroom]
  -- the release takes no trial away
  have hkept : Settlement.release ≠ .failure := nofun
  have hheld := trialsHeld_settle (p := s.periods) hfullCall hnone hkept (congrArg calls hfreed)
  rw [if_neg fun hboth => hstray hboth.1, trialsHeld_withTrials, Nat.add_zero] at hheld
  rw [hafter]
  refine ⟨period_eq_some_iff.2 ⟨hfreedHalf, hperiods⟩, ?_⟩
  rw [← hperiods, trialsHeld_withTrials, hperiods, hheld]

/-- A call that was unsettled as the period began can break its budget. -/
theorem Begins.exists_over_budget {settings : Settings} {before : List CallerAction} {now p : Nat}
    (h : Begins settings before now p) (hpos : 1 ≤ settings.permittedCallsInHalfOpenState)
    {call : Call} (hcall : call ∈ (run settings before).calls) (hnone : call.outcome = none) :
    ∃ others, (run settings (before ++ .ask now :: others)).period = some p
      ∧ (run settings (before ++ .ask now :: others)).trialsHeld p
        = settings.permittedCallsInHalfOpenState + 1 := by
  obtain ⟨hissued, hcalls, hlt⟩ := h.first hpos
  obtain ⟨hhalf, hperiods⟩ := period_eq_some_iff.1 h.2
  have htracked := tracked_run settings hpos before
  have hsettings := (tracked_run settings hpos (before ++ [.ask now])).settings_eq
  have hstray : call.admittedIn ≠ some p := by
    intro hadmitted
    have := htracked.admitted_le call hcall p hadmitted
    omega
  have hone := trialsHeld_admitted (p := p) rfl hcalls
  rw [(htracked.counts_eq_zero hlt).1, if_pos rfl] at hone
  obtain ⟨i, hi⟩ := List.mem_iff_getElem?.1 hcall
  have hfound : (run settings (before ++ [.ask now])).calls[i]? = some call := by
    rw [hcalls, List.getElem?_append_left (List.getElem?_eq_some_iff.1 hi).1, hi]
  rw [← hperiods] at hstray
  have hover := foldl_over_budget hhalf hfound hnone hstray now
    (k := settings.permittedCallsInHalfOpenState - 1) (by omega) (by rw [hissued, hsettings]; omega)
  refine ⟨askReleaseAsk (settings.permittedCallsInHalfOpenState - 1) i now, ?_⟩
  rw [← List.singleton_append, ← List.append_assoc, run_append_all]
  rw [hperiods, hone] at hover
  refine ⟨hover.1, ?_⟩
  rw [hover.2]
  omega

/-- **How many trials there are in a half-open period.** Every half-open period begins as a caller
asks an open breaker. At any moment of it the trials that run and those that have succeeded are
together at most as many as were permitted and one more for each call from outside the period that
was released in it. They stay within the permitted number, whatever the callers do, exactly when all
calls from before had been settled as the period began. -/
theorem trialBudget_iff (settings : Settings) (hpos : 1 ≤ settings.permittedCallsInHalfOpenState)
    (actions : List CallerAction) (p : Nat) (hperiod : (run settings actions).period = some p) :
    (run settings actions).trialsHeld p
        ≤ settings.permittedCallsInHalfOpenState + (run settings actions).strayReleases p
      ∧ ∃ before now more, actions = before ++ .ask now :: more ∧ Begins settings before now p
        ∧ ((∀ others, (run settings (before ++ .ask now :: others)).period = some p →
              (run settings (before ++ .ask now :: others)).trialsHeld p
                ≤ settings.permittedCallsInHalfOpenState)
          ↔ ∀ call ∈ (run settings before).calls, call.outcome ≠ none) := by
  have hbound : ∀ actions, (run settings actions).period = some p →
      (run settings actions).trialsHeld p
        ≤ settings.permittedCallsInHalfOpenState + (run settings actions).strayReleases p := by
    intro actions hperiod
    obtain ⟨hhalf, rfl⟩ := period_eq_some_iff.1 hperiod
    obtain ⟨hissued, -, hheld⟩ := inBudget_run settings hpos actions hhalf
    omega
  refine ⟨hbound actions hperiod, ?_⟩
  obtain ⟨before, now, more, hactions, hbegins⟩ := exists_begins settings hpos actions hperiod
  refine ⟨before, now, more, hactions, hbegins, ?_, ?_⟩
  · intro hkept call hcall hnone
    obtain ⟨others, hlasts, hover⟩ := hbegins.exists_over_budget hpos hcall hnone
    have hle := hkept others hlasts
    omega
  · intro hsettled others hlasts
    have hle := hbound _ hlasts
    rw [(hbegins.no_stray hpos hsettled others hlasts).2] at hle
    exact hle

/-- One trial is permitted, an open breaker may be tried at once, and one failure opens it. -/
def oneTrial : Settings := { twoTrials with permittedCallsInHalfOpenState := 1 }

/-- Two calls are admitted and the first one fails; a trial is admitted, the second call is
released, and another caller asks. -/
def strayRelease : List CallerAction :=
  [.ask 0, .ask 0, .settle 0 .failure 0, .ask 0, .settle 1 .release 0, .ask 0]

theorem trialBudget_iff_strayRelease :
    1 ≤ oneTrial.permittedCallsInHalfOpenState
      ∧ (run oneTrial strayRelease).period = some 1
      ∧ (run oneTrial strayRelease).trialsHeld 1
        ≤ oneTrial.permittedCallsInHalfOpenState + (run oneTrial strayRelease).strayReleases 1
      ∧ ∃ before now more, strayRelease = before ++ .ask now :: more ∧ Begins oneTrial before now 1
        ∧ ((∀ others, (run oneTrial (before ++ .ask now :: others)).period = some 1 →
              (run oneTrial (before ++ .ask now :: others)).trialsHeld 1
                ≤ oneTrial.permittedCallsInHalfOpenState)
          ↔ ∀ call ∈ (run oneTrial before).calls, call.outcome ≠ none) := by
  have hpos : 1 ≤ oneTrial.permittedCallsInHalfOpenState := by decide
  have hperiod : (run oneTrial strayRelease).period = some 1 := by decide
  exact ⟨hpos, hperiod, trialBudget_iff oneTrial hpos strayRelease 1 hperiod⟩

/-- Two trials of the same period are running, and one is permitted. -/
theorem not_trialBudget_strayRelease :
    (run oneTrial strayRelease).period = some 1
      ∧ ¬(run oneTrial strayRelease).trialsRunning 1 + (run oneTrial strayRelease).trialsSucceeded 1
        ≤ oneTrial.permittedCallsInHalfOpenState := by
  decide

end Gatehouse.Breaker.Callers
