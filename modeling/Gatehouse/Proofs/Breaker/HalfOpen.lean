/-
What ends a half-open period.

A half-open breaker closes with the last success it waits for and opens with the first failure. It
cannot tell whose outcome that is: a call that was admitted long before the period may still be
settled in it, and then counts like a trial. So the decision rests on the trials of the period
exactly when every outcome that led to it came from one of them.

The work is in `Tracked`: along every run, the successes that a half-open breaker has counted are
the ones that were recorded since the period began, no matter by whom.
-/
import Gatehouse.Proofs.Breaker.Callers

set_option autoImplicit false

namespace Gatehouse.Breaker.Callers

open CircuitBreaker
open Gatehouse.Pipeline (Settlement)

/-- What the counters of the breaker say about its calls. -/
structure Tracked (settings : Settings) (s : Callers) : Prop where
  settings_eq : s.breaker.settings = settings
  admitted_le : ∀ call ∈ s.calls, ∀ p, call.admittedIn = some p → p ≤ s.periods
  settled_le : ∀ call ∈ s.calls, ∀ o, call.outcome = some o → ∀ p, o.period = some p → p ≤ s.periods
  /-- A trial of this period that is settled was settled in it. -/
  trial_settled : s.breaker.state = .halfOpen → ∀ call ∈ s.calls,
    call.admittedIn = some s.periods → ∀ o, call.outcome = some o → o.period = some s.periods
  successes : s.breaker.state = .halfOpen → s.breaker.trialSuccesses = s.successesIn s.periods
  few : s.breaker.state = .halfOpen →
    s.breaker.trialSuccesses < settings.permittedCallsInHalfOpenState

theorem Tracked.start {settings : Settings} : Tracked settings (Callers.start settings) where
  settings_eq := rfl
  admitted_le := nofun
  settled_le := nofun
  trial_settled := nofun
  successes := nofun
  few := nofun

/-! ## Asking -/

/-- A call that has just been admitted counts for nothing yet. -/
theorem successesIn_admitted (s : Callers) (call : Call) (hcall : call.outcome = none) (p : Nat) :
    successesIn { s with calls := s.calls ++ [call] } p = s.successesIn p := by
  simp [successesIn, List.countP_append, hcall]

/-- Nothing was settled in a period that has not begun. -/
theorem Tracked.successesIn_eq_zero {settings : Settings} {s : Callers} (h : Tracked settings s)
    {p : Nat} (hp : s.periods < p) : s.successesIn p = 0 := by
  rw [successesIn, List.countP_eq_zero]
  intro call hcall hsuccess
  have houtcome := of_decide_eq_true hsuccess
  have := h.settled_le call hcall _ houtcome p rfl
  omega

/-- Another call that is admitted and not settled. -/
theorem Tracked.admit {settings : Settings} {s : Callers} (h : Tracked settings s) (call : Call)
    (hcall : call.outcome = none) (hperiod : ∀ p, call.admittedIn = some p → p ≤ s.periods) :
    Tracked settings { s with calls := s.calls ++ [call] } where
  settings_eq := h.settings_eq
  admitted_le := by
    intro c hc p hp
    rcases List.mem_append.1 hc with hc | hc
    · exact h.admitted_le c hc p hp
    · rw [List.mem_singleton.1 hc] at hp
      exact hperiod p hp
  settled_le := by
    intro c hc o ho
    rcases List.mem_append.1 hc with hc | hc
    · exact h.settled_le c hc o ho
    · rw [List.mem_singleton.1 hc, hcall] at ho
      cases ho
  trial_settled := by
    intro hhalf c hc hadmitted o ho
    rcases List.mem_append.1 hc with hc | hc
    · exact h.trial_settled hhalf c hc hadmitted o ho
    · rw [List.mem_singleton.1 hc, hcall] at ho
      cases ho
  successes := by
    intro hhalf
    rw [successesIn_admitted s call hcall]
    exact h.successes hhalf
  few := h.few

/-- A breaker that does not become half-open begins no period. -/
theorem advance_of_imp {s : Callers} {after : CircuitBreaker}
    (h : after.state = .halfOpen → s.breaker.state = .halfOpen) :
    s.advance after = { s with breaker := after } := by
  rw [advance, if_neg]
  rintro ⟨hne, hhalf⟩
  exact hne (h hhalf)

/-- A breaker that keeps its state, its settings and its count of successes. -/
theorem Tracked.keep {settings : Settings} {s : Callers} (h : Tracked settings s)
    {after : CircuitBreaker} (hsettings : after.settings = s.breaker.settings)
    (hstate : after.state = s.breaker.state)
    (hsuccesses : after.trialSuccesses = s.breaker.trialSuccesses) :
    Tracked settings (s.advance after) := by
  rw [advance_of_imp (hstate ▸ id)]
  exact
    { settings_eq := hsettings.trans h.settings_eq
      admitted_le := h.admitted_le
      settled_le := h.settled_le
      trial_settled := fun hhalf => h.trial_settled (hstate ▸ hhalf)
      successes := fun hhalf => hsuccesses.trans (h.successes (hstate ▸ hhalf))
      few := fun hhalf => by
        show after.trialSuccesses < _
        rw [hsuccesses]
        exact h.few (hstate ▸ hhalf) }

/-- An open breaker that becomes half-open: nothing belongs to the new period yet. -/
theorem Tracked.begin {settings : Settings} (hpos : 1 ≤ settings.permittedCallsInHalfOpenState)
    {s : Callers} (h : Tracked settings s) (hopened : s.breaker.state = .opened) :
    Tracked settings (s.advance s.breaker.halfOpen.issueTrial.2) := by
  have hadvance : s.advance s.breaker.halfOpen.issueTrial.2
      = { s with breaker := s.breaker.halfOpen.issueTrial.2, periods := s.periods + 1 } := by
    rw [advance, if_pos]
    exact ⟨by rw [hopened]; decide, by simp⟩
  rw [hadvance]
  -- the number of the new period is above every number that a call carries
  exact
    { settings_eq := by simpa using h.settings_eq
      admitted_le := fun call hcall p hp => Nat.le_succ_of_le (h.admitted_le call hcall p hp)
      settled_le := fun call hcall o ho p hp =>
        Nat.le_succ_of_le (h.settled_le call hcall o ho p hp)
      trial_settled := fun _ call hcall hadmitted => by
        have := h.admitted_le call hcall _ hadmitted
        dsimp only at this
        omega
      successes := fun _ => by
        have hzero := h.successesIn_eq_zero (Nat.lt_succ_self s.periods)
        simpa [successesIn] using hzero.symm
      few := fun _ => by
        rw [trialSuccesses_issueTrial, trialSuccesses_halfOpen]
        exact hpos }

theorem Tracked.acquire {settings : Settings} (hpos : 1 ≤ settings.permittedCallsInHalfOpenState)
    {s : Callers} (h : Tracked settings s) (now : Nat) :
    Tracked settings (s.advance (s.breaker.acquire now).2) := by
  rcases s.breaker.acquire_cases now with ⟨-, heq⟩ | ⟨-, -, heq⟩ | ⟨hopened, -, heq⟩ | ⟨-, heq⟩
  -- only an open breaker whose wait is over begins a period
  · rw [heq]
    exact h.keep rfl rfl rfl
  · rw [heq]
    exact h.keep rfl rfl rfl
  · rw [heq]
    exact h.begin hpos hopened
  · rw [heq]
    exact h.keep (by simp) (by simp) (by simp)

theorem eq_periods_of_period {s : Callers} {p : Nat} (h : s.period = some p) : p = s.periods := by
  unfold period at h
  split at h
  · exact (Option.some.inj h).symm
  · cases h

theorem Tracked.ask {settings : Settings} (hpos : 1 ≤ settings.permittedCallsInHalfOpenState)
    {s : Callers} (h : Tracked settings s) (now : Nat) : Tracked settings (s.ask now) := by
  have hafter := h.acquire hpos now
  unfold Callers.ask
  split
  · exact hafter.admit _ rfl fun p hp => Nat.le_of_eq (eq_periods_of_period hp)
  · exact hafter

/-! ## Settling -/

/-- The two ways of looking at a settlement: nothing to settle, or a call that was not settled. -/
theorem settle_cases (s : Callers) (i : Nat) (how : Settlement) (now : Nat) :
    (s.settle i how now = s ∧ ∀ call, s.calls[i]? = some call → call.outcome ≠ none)
      ∨ ∃ call, s.calls[i]? = some call ∧ call.outcome = none
        ∧ s.settle i how now
          = { s.advance (s.breaker.perform now how.operation).2 with
              calls :=
                s.calls.set i { call with outcome := some { how, period := s.period } } } := by
  unfold settle
  split
  · rename_i admittedIn hcall
    exact .inr ⟨_, hcall, rfl, rfl⟩
  · rename_i hno
    refine .inl ⟨rfl, fun call hcall hnone => ?_⟩
    exact hno call.admittedIn (by rw [hcall, ← hnone])

/-- What a settlement can leave half-open: it was so before, and the settlement is a success that is
not the last one needed, or handed back a permission. -/
theorem perform_settlement_halfOpen {b : CircuitBreaker} {how : Settlement} {now : Nat}
    (h : (b.perform now how.operation).2.state = .halfOpen) :
    b.state = .halfOpen
      ∧ ((how = .success
            ∧ (b.perform now how.operation).2.trialSuccesses = b.trialSuccesses + 1
            ∧ b.trialSuccesses + 1 < b.settings.permittedCallsInHalfOpenState)
          ∨ (how = .release
            ∧ (b.perform now how.operation).2.trialSuccesses = b.trialSuccesses)) := by
  cases how with
  | release =>
    change b.release.state = .halfOpen at h
    rw [state_release] at h
    exact ⟨h, .inr ⟨rfl, trialSuccesses_release b⟩⟩
  | success =>
    change (b.record now false).state = .halfOpen at h
    change b.state = .halfOpen ∧ ((_ ∧ (b.record now false).trialSuccesses = _ ∧ _) ∨ _)
    cases hstate : b.state with
    | opened => simp [record_opened hstate, hstate] at h
    | closed => rcases (record_closed hstate now false).2 with hs | hs <;> simp [hs] at h
    | halfOpen =>
      rw [record_success_halfOpen hstate] at h ⊢
      by_cases hlast : b.settings.permittedCallsInHalfOpenState ≤ b.trialSuccesses + 1
      · simp [hlast] at h
      · refine ⟨rfl, .inl ⟨rfl, ?_, by omega⟩⟩
        rw [if_neg hlast]
  | failure =>
    change (b.record now true).state = .halfOpen at h
    cases hstate : b.state with
    | opened => simp [record_opened hstate, hstate] at h
    | closed => rcases (record_closed hstate now true).2 with hs | hs <;> simp [hs] at h
    | halfOpen => simp [record_failure_halfOpen hstate] at h

theorem settings_perform_settlement (b : CircuitBreaker) (how : Settlement) (now : Nat) :
    (b.perform now how.operation).2.settings = b.settings := by
  cases how with
  | release => exact settings_release b
  | success => exact settings_record b now false
  | failure => exact settings_record b now true

/-- A call that is settled now adds to the successes of a period if it succeeds in it. -/
theorem successesIn_settle {s : Callers} {i : Nat} {call : Call} (hcall : s.calls[i]? = some call)
    (hnone : call.outcome = none) (settled : Call) (p : Nat) :
    successesIn { s with calls := s.calls.set i settled } p
      = s.successesIn p + if settled.outcome = some { how := .success, period := some p } then
        1 else 0 := by
  obtain ⟨hi, hget⟩ := List.getElem?_eq_some_iff.1 hcall
  rw [successesIn, List.countP_set hi, hget, hnone]
  simp [successesIn]

theorem period_of_halfOpen {s : Callers} (h : s.breaker.state = .halfOpen) :
    s.period = some s.periods := if_pos h

theorem Tracked.settle {settings : Settings} {s : Callers} (h : Tracked settings s) (i : Nat)
    (how : Settlement) (now : Nat) : Tracked settings (s.settle i how now) := by
  rcases s.settle_cases i how now with ⟨heq, -⟩ | ⟨call, hcall, hnone, heq⟩
  · rwa [heq]
  -- a settlement makes nothing half-open, so no period begins
  rw [heq, advance_of_imp fun hhalf => (perform_settlement_halfOpen hhalf).1]
  have hmem : call ∈ s.calls := List.mem_of_getElem? hcall
  refine ⟨?_, ?_, ?_, ?_, ?_, ?_⟩
  · exact (settings_perform_settlement _ how now).trans h.settings_eq
  · intro c hc p hp
    rcases List.mem_or_eq_of_mem_set hc with hc | rfl
    · exact h.admitted_le c hc p hp
    · exact h.admitted_le call hmem p hp
  · intro c hc o ho p hp
    rcases List.mem_or_eq_of_mem_set hc with hc | rfl
    · exact h.settled_le c hc o ho p hp
    · rw [← Option.some.inj ho] at hp
      exact Nat.le_of_eq (eq_periods_of_period (s := s) hp)
  · intro hhalf c hc hadmitted o ho
    have hbefore := (perform_settlement_halfOpen hhalf).1
    rcases List.mem_or_eq_of_mem_set hc with hc | rfl
    · exact h.trial_settled hbefore c hc hadmitted o ho
    · rw [← Option.some.inj ho]
      exact period_of_halfOpen hbefore
  · -- the breaker and the list of calls count the same success, or both count none
    intro hhalf
    obtain ⟨hbefore, hcount⟩ := perform_settlement_halfOpen hhalf
    have hsuccesses := h.successes hbefore
    have hadd :=
      successesIn_settle hcall hnone { call with outcome := some ⟨how, s.period⟩ } s.periods
    rw [period_of_halfOpen hbefore] at hadd ⊢
    refine Eq.trans ?_ hadd.symm
    rcases hcount with ⟨rfl, hcount, -⟩ | ⟨rfl, hcount⟩
    · rw [if_pos rfl, ← hsuccesses]
      exact hcount
    · rw [if_neg (by simp), ← hsuccesses]
      exact hcount
  · intro hhalf
    obtain ⟨hbefore, ⟨-, hcount, hfew⟩ | ⟨-, hcount⟩⟩ := perform_settlement_halfOpen hhalf
    · rw [← h.settings_eq]
      exact Nat.lt_of_le_of_lt (Nat.le_of_eq hcount) hfew
    · exact Nat.lt_of_le_of_lt (Nat.le_of_eq hcount) (h.few hbefore)

/-- **Along every run a half-open breaker has counted exactly the successes recorded
in its period.** -/
theorem tracked_run (settings : Settings) (hpos : 1 ≤ settings.permittedCallsInHalfOpenState)
    (actions : List CallerAction) : Tracked settings (run settings actions) := by
  refine run_induction Tracked.start (fun s a h => ?_) actions
  cases a with
  | ask now => exact h.ask hpos now
  | settle i how now => exact h.settle i how now

/-! ## The end of a period -/

theorem state_ask_of_halfOpen {s : Callers} (h : s.breaker.state = .halfOpen) (now : Nat) :
    (s.ask now).breaker.state = .halfOpen := by
  have hacquire : (s.breaker.acquire now).2.state = .halfOpen := by
    rcases s.breaker.acquire_cases now with ⟨hs, -⟩ | ⟨hs, -⟩ | ⟨hs, -⟩ | ⟨-, heq⟩
    · rw [h] at hs
      cases hs
    · rw [h] at hs
      cases hs
    · rw [h] at hs
      cases hs
    · rw [heq, state_issueTrial, h]
  unfold ask
  split
  · exact hacquire
  · exact hacquire

theorem state_perform_settlement_of_halfOpen {b : CircuitBreaker} (h : b.state = .halfOpen)
    (how : Settlement) (now : Nat) :
    (b.perform now how.operation).2.state
      = match how with
        | .failure => .opened
        | .release => .halfOpen
        | .success =>
          if b.settings.permittedCallsInHalfOpenState ≤ b.trialSuccesses + 1 then .closed
          else .halfOpen := by
  cases how with
  | failure =>
    change (b.record now true).state = .opened
    rw [record_failure_halfOpen h, state_trip]
  | release =>
    change b.release.state = .halfOpen
    rw [state_release, h]
  | success =>
    change (b.record now false).state = _
    rw [record_success_halfOpen h]
    split
    · rfl
    · exact h

theorem step_settle_of_halfOpen {s : Callers} (hhalf : s.breaker.state = .halfOpen) {i : Nat}
    {call : Call} (hcall : s.calls[i]? = some call) (hnone : call.outcome = none) (how : Settlement)
    (now : Nat) :
    s.step (.settle i how now)
      = { s with
          breaker := (s.breaker.perform now how.operation).2
          calls :=
            s.calls.set i { call with outcome := some { how, period := some s.periods } } } := by
  rcases s.settle_cases i how now with ⟨-, hsettled⟩ | ⟨c, hc, -, heq⟩
  · exact absurd hnone (hsettled call hcall)
  · obtain rfl : call = c := Option.some.inj (hcall.symm.trans hc)
    rw [step, heq, advance_of_imp fun h => (perform_settlement_halfOpen h).1,
      period_of_halfOpen hhalf]

/-- A half-open period is ended by nothing but the settlement of a call. -/
theorem exists_settle_of_state_ne {s : Callers} (hhalf : s.breaker.state = .halfOpen)
    {a : CallerAction} (hend : (s.step a).breaker.state ≠ .halfOpen) :
    ∃ i how now call, a = .settle i how now ∧ s.calls[i]? = some call ∧ call.outcome = none := by
  cases a with
  | ask now => exact absurd (state_ask_of_halfOpen hhalf now) hend
  | settle i how now =>
    rcases s.settle_cases i how now with ⟨heq, -⟩ | ⟨call, hcall, hnone, -⟩
    · rw [step, heq] at hend
      exact absurd hhalf hend
    · exact ⟨i, how, now, call, rfl, hcall, hnone⟩

theorem state_step_settle_of_halfOpen {s : Callers} (hhalf : s.breaker.state = .halfOpen) {i : Nat}
    {call : Call} (hcall : s.calls[i]? = some call) (hnone : call.outcome = none) (how : Settlement)
    (now : Nat) :
    (s.step (.settle i how now)).breaker.state
      = match how with
        | .failure => .opened
        | .release => .halfOpen
        | .success =>
          if s.breaker.settings.permittedCallsInHalfOpenState ≤ s.breaker.trialSuccesses + 1 then
            .closed
          else .halfOpen := by
  rw [step_settle_of_halfOpen hhalf hcall hnone]
  exact state_perform_settlement_of_halfOpen hhalf how now

/-- **A half-open breaker closes with the last success it needs,** from whichever call it comes. -/
theorem Tracked.closes_iff {settings : Settings} {s : Callers} (h : Tracked settings s)
    (hhalf : s.breaker.state = .halfOpen) (a : CallerAction) :
    (s.step a).breaker.state = .closed
      ↔ ∃ i now call, a = .settle i .success now ∧ s.calls[i]? = some call ∧ call.outcome = none
        ∧ s.successesIn s.periods + 1 = settings.permittedCallsInHalfOpenState := by
  have hcount := h.successes hhalf
  have hfew := h.few hhalf
  constructor
  · intro hclosed
    obtain ⟨i, how, now, call, rfl, hcall, hnone⟩ :=
      exists_settle_of_state_ne hhalf (by rw [hclosed]; decide)
    rw [state_step_settle_of_halfOpen hhalf hcall hnone] at hclosed
    cases how with
    | failure => cases hclosed
    | release => cases hclosed
    | success =>
      refine ⟨i, now, call, rfl, hcall, hnone, ?_⟩
      dsimp only at hclosed
      split at hclosed
      · rename_i hlast
        rw [h.settings_eq] at hlast
        omega
      · cases hclosed
  · rintro ⟨i, now, call, rfl, hcall, hnone, hlast⟩
    rw [state_step_settle_of_halfOpen hhalf hcall hnone]
    dsimp only
    rw [if_pos]
    rw [h.settings_eq]
    omega

/-- **It opens with the first failure,** from whichever call it comes. -/
theorem opens_iff {s : Callers} (hhalf : s.breaker.state = .halfOpen) (a : CallerAction) :
    (s.step a).breaker.state = .opened
      ↔ ∃ i now call, a = .settle i .failure now ∧ s.calls[i]? = some call
        ∧ call.outcome = none := by
  constructor
  · intro hopened
    obtain ⟨i, how, now, call, rfl, hcall, hnone⟩ :=
      exists_settle_of_state_ne hhalf (by rw [hopened]; decide)
    rw [state_step_settle_of_halfOpen hhalf hcall hnone] at hopened
    cases how with
    | failure => exact ⟨i, now, call, rfl, hcall, hnone⟩
    | release => cases hopened
    | success =>
      dsimp only at hopened
      split at hopened <;> cases hopened
  · rintro ⟨i, now, call, rfl, hcall, hnone⟩
    exact state_step_settle_of_halfOpen hhalf hcall hnone .failure now

/-! ## Trials and other calls -/

/-- **The decision of a half-open breaker rests on the trials of its period:** it closes only after
as many of them have succeeded as were to be tried, and opens only when one of them fails. -/
def DecidedByTrials (s : Callers) (a : CallerAction) : Prop :=
  ((s.step a).breaker.state = .closed →
      s.breaker.settings.permittedCallsInHalfOpenState ≤ (s.step a).trialsSucceeded s.periods)
    ∧ ((s.step a).breaker.state = .opened →
      ∃ i now call, a = .settle i .failure now ∧ s.calls[i]? = some call
        ∧ call.admittedIn = some s.periods)

/-- No outcome that ends the period comes from a call that was admitted outside of it: none of the
successes of the period when it closes, and not the failure when it opens. -/
def EndedByTrials (s : Callers) (a : CallerAction) : Prop :=
  ((s.step a).breaker.state = .closed → ∀ call ∈ (s.step a).calls,
      call.outcome = some { how := .success, period := some s.periods } →
      call.admittedIn = some s.periods)
    ∧ ((s.step a).breaker.state = .opened → ∀ i now call, a = .settle i .failure now →
      s.calls[i]? = some call → call.admittedIn = some s.periods)

/-- Of the elements with one property as many have another as there are, if and only
if all have it. -/
theorem countP_le_countP_and_iff {α : Type} (p q : α → Prop) [DecidablePred p] [DecidablePred q]
    (l : List α) :
    l.countP (fun x => q x) ≤ l.countP (fun x => p x ∧ q x) ↔ ∀ x ∈ l, q x → p x := by
  have hand : l.countP (fun x => decide (p x ∧ q x))
      = (l.filter fun x => q x).countP fun x => p x := by
    rw [List.countP_filter]
    simp
  rw [hand, List.countP_eq_length_filter]
  -- among those with the one property, all have the other
  constructor
  · intro hle x hx hq
    have hall := List.countP_eq_length.1 (Nat.le_antisymm List.countP_le_length hle)
    simpa using hall x (List.mem_filter.2 ⟨hx, by simpa using hq⟩)
  · intro himp
    refine Nat.le_of_eq (Eq.symm (List.countP_eq_length.2 fun x hx => ?_))
    obtain ⟨hx, hq⟩ := List.mem_filter.1 hx
    simpa using himp x hx (by simpa using hq)

/-- A trial that is settled while its period lasts is settled in it. -/
theorem Tracked.trial_settled_step {settings : Settings} {s : Callers} (h : Tracked settings s)
    (hhalf : s.breaker.state = .halfOpen) {i : Nat} {call : Call} (hcall : s.calls[i]? = some call)
    (hnone : call.outcome = none) (how : Settlement) (now : Nat) :
    ∀ c ∈ (s.step (.settle i how now)).calls, c.admittedIn = some s.periods →
      ∀ o, c.outcome = some o → o.period = some s.periods := by
  rw [step_settle_of_halfOpen hhalf hcall hnone]
  intro c hc hadmitted o ho
  rcases List.mem_or_eq_of_mem_set hc with hc | rfl
  · exact h.trial_settled hhalf c hc hadmitted o ho
  · rw [← Option.some.inj ho]

/-- When the last success is recorded, there are as many successes in the period as were needed. -/
theorem successesIn_step_of_success {s : Callers} (hhalf : s.breaker.state = .halfOpen) {i : Nat}
    {call : Call} (hcall : s.calls[i]? = some call) (hnone : call.outcome = none) (now : Nat) :
    (s.step (.settle i .success now)).successesIn s.periods = s.successesIn s.periods + 1 := by
  rw [step_settle_of_halfOpen hhalf hcall hnone]
  have hadd := successesIn_settle hcall hnone
    { call with outcome := some { how := .success, period := some s.periods } } s.periods
  rw [if_pos rfl] at hadd
  exact hadd

/-- A breaker that closes does so on its trials exactly when no other call succeeded in the
period. -/
theorem Tracked.trialsSucceeded_ge_iff {settings : Settings} {s : Callers} (h : Tracked settings s)
    (hhalf : s.breaker.state = .halfOpen) {a : CallerAction}
    (hclosed : (s.step a).breaker.state = .closed) :
    s.breaker.settings.permittedCallsInHalfOpenState ≤ (s.step a).trialsSucceeded s.periods
      ↔ ∀ call ∈ (s.step a).calls,
        call.outcome = some { how := .success, period := some s.periods } →
          call.admittedIn = some s.periods := by
  obtain ⟨i, now, call, rfl, hcall, hnone, hlast⟩ := (h.closes_iff hhalf a).1 hclosed
  have hsettled := h.trial_settled_step hhalf hcall hnone .success now
  have hneeded : s.breaker.settings.permittedCallsInHalfOpenState
      = (s.step (.settle i .success now)).successesIn s.periods := by
    rw [successesIn_step_of_success hhalf hcall hnone, hlast, h.settings_eq]
  have htrials : (s.step (.settle i .success now)).trialsSucceeded s.periods
      = (s.step (.settle i .success now)).calls.countP fun c =>
        c.admittedIn = some s.periods
          ∧ c.outcome = some { how := .success, period := some s.periods } := by
    refine List.countP_congr fun c hc => ?_
    simp only [decide_eq_true_eq]
    refine and_congr_right fun hadmitted => ?_
    -- a trial of this period can only have succeeded in this period
    constructor
    · intro hhow
      obtain ⟨o, ho, hsuccess⟩ := Option.map_eq_some_iff.1 hhow
      rw [ho, ← hsuccess, ← hsettled c hc hadmitted o ho]
    · intro ho
      rw [ho]
      rfl
  rw [hneeded, htrials, successesIn]
  exact countP_le_countP_and_iff (fun c : Call => c.admittedIn = some s.periods)
    (fun c : Call => c.outcome = some { how := .success, period := some s.periods }) _

/-- A breaker that opens does so on a trial exactly when the call that failed is one. -/
theorem opens_on_trial_iff {s : Callers} (hhalf : s.breaker.state = .halfOpen) {a : CallerAction}
    (hopened : (s.step a).breaker.state = .opened) :
    (∃ i now call, a = .settle i .failure now ∧ s.calls[i]? = some call
        ∧ call.admittedIn = some s.periods)
      ↔ ∀ i now call, a = .settle i .failure now → s.calls[i]? = some call →
          call.admittedIn = some s.periods := by
  obtain ⟨i, now, call, rfl, hcall, -⟩ := (opens_iff hhalf a).1 hopened
  constructor
  · rintro ⟨j, now', c, ha, hc, hadmitted⟩ k now'' c' ha' hc'
    cases ha
    cases ha'
    rwa [← Option.some.inj (hc.symm.trans hc')]
  · intro hall
    exact ⟨i, now, call, rfl, hcall, hall i now call rfl hcall⟩

/-- **What ends a half-open period, and when it is a decision of its trials.** On every run a
half-open breaker closes exactly when a call succeeds that brings the successes recorded since the
period began to the number needed, and opens exactly when a call fails. The trials of the period
decide if and only if none of these outcomes belongs to a call that was admitted before. -/
theorem decidedByTrials_iff (settings : Settings)
    (hpos : 1 ≤ settings.permittedCallsInHalfOpenState) (actions : List CallerAction)
    (a : CallerAction) (hhalf : (run settings actions).breaker.state = .halfOpen) :
    (((run settings actions).step a).breaker.state = .closed
        ↔ ∃ i now call, a = .settle i .success now ∧ (run settings actions).calls[i]? = some call
          ∧ call.outcome = none
          ∧ (run settings actions).successesIn (run settings actions).periods + 1
            = settings.permittedCallsInHalfOpenState)
      ∧ (((run settings actions).step a).breaker.state = .opened
        ↔ ∃ i now call, a = .settle i .failure now ∧ (run settings actions).calls[i]? = some call
          ∧ call.outcome = none)
      ∧ (DecidedByTrials (run settings actions) a ↔ EndedByTrials (run settings actions) a) := by
  have h := tracked_run settings hpos actions
  refine ⟨h.closes_iff hhalf a, opens_iff hhalf a, and_congr ?_ ?_⟩
  · exact imp_congr_right fun hclosed => h.trialsSucceeded_ge_iff hhalf hclosed
  · exact imp_congr_right fun hopened => opens_on_trial_iff hhalf hopened

/-- Two trials are needed, an open breaker may be tried at once, and one failure opens it. -/
def twoTrials : Settings :=
  { failureRateThreshold := Number.BinaryFormat.single.ofNat 50, slidingWindowSize := 1,
    minimumNumberOfCalls := 1, waitDurationMs := 0, permittedCallsInHalfOpenState := 2 }

/-- Three calls are admitted and the first one fails; a trial is admitted, and the
second call succeeds. -/
def lateSuccess : List CallerAction :=
  [.ask 0, .ask 0, .ask 0, .settle 0 .failure 0, .ask 0, .settle 1 .success 0]

theorem decidedByTrials_iff_lateSuccess :
    1 ≤ twoTrials.permittedCallsInHalfOpenState
      ∧ (run twoTrials lateSuccess).breaker.state = .halfOpen
      ∧ (DecidedByTrials (run twoTrials lateSuccess) (.settle 2 .success 0)
        ↔ EndedByTrials (run twoTrials lateSuccess) (.settle 2 .success 0)) := by
  have hpos : 1 ≤ twoTrials.permittedCallsInHalfOpenState := by decide
  have hhalf : (run twoTrials lateSuccess).breaker.state = .halfOpen := by decide
  exact ⟨hpos, hhalf, (decidedByTrials_iff twoTrials hpos lateSuccess _ hhalf).2.2⟩

/-- The third call succeeds late as well: the breaker closes, and its only trial is still
running. -/
theorem not_decidedByTrials_lateSuccess :
    (run twoTrials lateSuccess).breaker.state = .halfOpen
      ∧ ((run twoTrials lateSuccess).step (.settle 2 .success 0)).breaker.state = .closed
      ∧ ¬DecidedByTrials (run twoTrials lateSuccess) (.settle 2 .success 0) := by
  have hclosed : ((run twoTrials lateSuccess).step (.settle 2 .success 0)).breaker.state
      = .closed := by
    decide
  refine ⟨by decide, hclosed, fun h => ?_⟩
  exact absurd (h.1 hclosed) (by decide)

end Gatehouse.Breaker.Callers
