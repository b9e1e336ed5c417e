/-
The sliding window of a breaker and its whole history.

A window is kept up by pushing and dropping outcomes one at a time, with a counter of failures
beside them. It is emptied when the breaker closes, and nobody looks at it while the breaker is open
or half-open. Here it is compared with the history itself: what was recorded since the breaker was
created or last became closed.

`Window.Holds` says that a window is the queue of some outcomes and counts them rightly. Pushing,
dropping and recording keep it, for every limit (`Holds.record`), and what an operation can do to
the window of a breaker is listed once, in `WindowStep`. The main statement is `window_performAll`.
-/
import Gatehouse.Proofs.Breaker.Lifecycle
import Mathlib.Data.List.DropRight

set_option autoImplicit false

namespace Gatehouse.Breaker

/-! ## The last outcomes of a list -/

/-- One outcome more: the last ones are the former last ones with it, without the oldest if
they are too many. -/
theorem rtake_concat (limit : Nat) (outcomes : List Bool) (failed : Bool) :
    (outcomes ++ [failed]).rtake limit
      = if limit < (outcomes.rtake limit ++ [failed]).length then
        (outcomes.rtake limit ++ [failed]).tail
        else outcomes.rtake limit ++ [failed] := by
  have hkept : outcomes.rtake limit ++ [failed]
      = (outcomes ++ [failed]).drop (outcomes.length - limit) := by
    rw [List.rtake, List.drop_append_of_le_length (Nat.sub_le _ _)]
  rw [hkept, List.rtake, List.length_drop, List.length_append, List.length_singleton,
    List.tail_drop]
  split
  · exact congrArg (List.drop · _) (by omega)
  · exact congrArg (List.drop · _) (by omega)

/-! ## Windows as queues -/

namespace Window

/-- **A window holds some outcomes,** oldest first, and has counted them and the
failures among them. -/
structure Holds (w : Window) (outcomes : List Bool) : Prop where
  toList : w.toList = outcomes
  size : w.size = outcomes.length
  failures : w.failures = outcomes.count true

theorem holds_empty (limit : Nat) : empty.Holds (List.rtake [] limit) := by
  rw [List.rtake_nil]
  exact ⟨rfl, rfl, rfl⟩

variable {w : Window} {outcomes : List Bool}

theorem Holds.push (h : w.Holds outcomes) (failed : Bool) :
    (w.push failed).Holds (outcomes ++ [failed]) where
  toList := by
    rw [← h.toList, Window.push, Window.toList, Window.toList, List.reverse_cons, List.append_assoc]
  size := by rw [List.length_append, ← h.size]; rfl
  failures := by
    rw [List.count_append, ← h.failures]
    cases failed <;> rfl

/-- A failure that is dropped has been counted. -/
theorem Holds.failures_pos (h : w.Holds outcomes) (holdest : w.toList.head? = some true) :
    0 < w.failures := by
  rw [h.failures, List.count_pos_iff, ← h.toList]
  exact List.mem_of_head? holdest

theorem Holds.forget {failed : Bool} {rest front back : List Bool} (h : w.Holds (failed :: rest))
    (hrest : front ++ back.reverse = rest) : (w.forget failed front back).Holds rest where
  toList := hrest
  size := by
    change w.size - 1 = rest.length
    rw [h.size]
    rfl
  failures := by
    change (if failed then w.failures - 1 else w.failures) = rest.count true
    rw [h.failures]
    cases failed <;> simp

theorem Holds.dropOldest (h : w.Holds outcomes) : w.dropOldest.Holds outcomes.tail := by
  have hlist := h.toList
  unfold Window.toList at hlist
  unfold Window.dropOldest
  split
  case h_1 oldest front hfront =>
    rw [hfront] at hlist
    subst hlist
    exact h.forget rfl
  case h_2 hfront =>
    rw [hfront, List.nil_append] at hlist
    rw [hlist]
    split
    case h_1 oldest rest => exact h.forget (List.append_nil rest)
    case h_2 => exact h

/-- **Recording keeps the last outcomes,** as many as the limit allows. -/
theorem Holds.record {limit : Nat} (h : w.Holds (outcomes.rtake limit)) (failed : Bool) :
    (w.record limit failed).Holds ((outcomes ++ [failed]).rtake limit) := by
  have hpushed := h.push failed
  rw [rtake_concat, ← hpushed.size]
  unfold Window.record
  dsimp only
  split
  · exact hpushed.dropOldest
  · exact hpushed

end Window

/-- **Whether a window asks for the breaker to open** is a matter of the outcomes that it holds. -/
theorem Settings.trips_iff {w : Window} {outcomes : List Bool} (h : w.Holds outcomes)
    (s : Settings) :
    s.trips w = true
      ↔ min s.minimumNumberOfCalls s.slidingWindowSize ≤ outcomes.length
        ∧ s.failureRateThreshold.le (failureRate (outcomes.count true) outcomes.length) = true := by
  rw [Settings.trips, Settings.evaluatedFrom, h.size, h.failures, Bool.and_eq_true,
    decide_eq_true_iff]

/-! ## What an operation does to the window -/

/-- The outcome that an operation records; `true` is a failure. -/
def Operation.outcome? : Operation → Option Bool
  | .succeed => some false
  | .fail => some true
  | .acquire | .release | .inspect => none

namespace CircuitBreaker

/-- **What one operation can do to the window of a breaker.** -/
inductive WindowStep (b : CircuitBreaker) (x : TimedOperation) (after : CircuitBreaker) : Prop where
  /-- A closed breaker records an outcome, and opens if its window asks for it then. -/
  | records (failed : Bool) (houtcome : x.operation.outcome? = some failed)
      (hbefore : b.state = .closed)
      (hwindow : after.window = b.window.record b.settings.slidingWindowSize failed)
      (hopens : after.state = .opened ↔ b.settings.trips after.window = true)
  /-- Nothing is recorded, and the breaker does not become closed. -/
  | keeps (hnothing : b.state = .closed → x.operation.outcome? = none)
      (hwindow : after.window = b.window) (hcloses : after.state = .closed → b.state = .closed)
  /-- The last trial that was needed closes the breaker. -/
  | clears (hbefore : b.state = .halfOpen) (hwindow : after.window = Window.empty)

@[simp] theorem window_issueTrial (b : CircuitBreaker) : b.issueTrial.2.window = b.window := by
  unfold issueTrial
  split <;> rfl

@[simp] theorem window_release (b : CircuitBreaker) : b.release.window = b.window := by
  unfold release
  split <;> rfl

theorem WindowStep.record {b : CircuitBreaker} {x : TimedOperation} {failed : Bool}
    (houtcome : x.operation.outcome? = some failed) : WindowStep b x (b.record x.time failed) := by
  cases hstate : b.state with
  | opened =>
    rw [record_opened hstate]
    refine .keeps (fun hclosed => ?_) rfl id
    cases hstate.symm.trans hclosed
  | closed =>
    rw [record_of_closed hstate]
    split
    case isTrue htrips => exact .records failed houtcome hstate rfl (iff_of_true rfl htrips)
    case isFalse htrips =>
      refine .records failed houtcome hstate rfl (iff_of_false (fun hopened => ?_) htrips)
      cases hstate.symm.trans hopened
  | halfOpen =>
    have hnothing : b.state = .closed → x.operation.outcome? = none := fun hclosed => by
      cases hstate.symm.trans hclosed
    cases failed with
    | true =>
      rw [record_failure_halfOpen hstate]
      exact .keeps hnothing rfl nofun
    | false =>
      rw [record_success_halfOpen hstate]
      split
      · exact .clears hstate rfl
      · exact .keeps hnothing rfl id

/-- **Every operation does one of these.** -/
theorem windowStep (b : CircuitBreaker) (x : TimedOperation) :
    WindowStep b x (b.perform x.time x.operation).2 := by
  cases hoperation : x.operation with
  | acquire =>
    have hnothing : x.operation.outcome? = none := by rw [hoperation]; rfl
    change WindowStep b x (b.acquire x.time).2
    rcases b.acquire_cases x.time with ⟨-, heq⟩ | ⟨-, -, heq⟩ | ⟨-, -, heq⟩ | ⟨-, heq⟩
    · rw [heq]
      exact .keeps (fun _ => hnothing) rfl id
    · rw [heq]
      exact .keeps (fun _ => hnothing) rfl id
    · rw [heq]
      refine .keeps (fun _ => hnothing) (window_issueTrial b.halfOpen) fun hclosed => ?_
      rw [state_issueTrial] at hclosed
      cases hclosed
    · rw [heq]
      exact .keeps (fun _ => hnothing) (window_issueTrial b) (by rw [state_issueTrial]; exact id)
  | succeed => exact .record (by rw [hoperation]; rfl)
  | fail => exact .record (by rw [hoperation]; rfl)
  | release =>
    have hnothing : x.operation.outcome? = none := by rw [hoperation]; rfl
    exact .keeps (fun _ => hnothing) (window_release b) (by rw [← state_release b]; exact id)
  | inspect =>
    have hnothing : x.operation.outcome? = none := by rw [hoperation]; rfl
    exact .keeps (fun _ => hnothing) rfl id

/-! ## The history since the breaker was closed -/

/-- **A breaker has been closed throughout the last part of its history,** and that part begins with
the creation of the breaker, or where it became closed. -/
structure ClosedSince (settings : Settings) (before period : List TimedOperation) : Prop where
  began : before = [] ∨ ∃ earlier x, before = earlier ++ [x]
    ∧ ((ofSettings settings).performAll earlier).state ≠ .closed
  closed : ∀ past, past <+: period →
    ((ofSettings settings).performAll (before ++ past)).state = .closed

theorem ClosedSince.concat {settings : Settings} {before period : List TimedOperation}
    {x : TimedOperation} (h : ClosedSince settings before period)
    (hclosed : ((ofSettings settings).performAll (before ++ (period ++ [x]))).state = .closed) :
    ClosedSince settings before (period ++ [x]) where
  began := h.began
  closed past hpast := by
    rcases List.prefix_concat_iff.1 hpast with rfl | hpast
    · exact hclosed
    · exact h.closed past hpast

/-- The outcomes that a part of a history records. -/
def outcomesOf (period : List TimedOperation) : List Bool :=
  period.filterMap fun x => x.operation.outcome?

theorem outcomesOf_concat (period : List TimedOperation) (x : TimedOperation) :
    outcomesOf (period ++ [x]) = outcomesOf period ++ x.operation.outcome?.toList := by
  rw [outcomesOf, List.filterMap_append, List.filterMap_cons, List.filterMap_nil]
  cases x.operation.outcome? <;> rfl

/-- **A closed breaker holds the last outcomes** of the part of its history in which it
has been closed. -/
theorem holds_of_closed (settings : Settings) (history : List TimedOperation)
    (hclosed : ((ofSettings settings).performAll history).state = .closed) :
    ∃ before period, history = before ++ period ∧ ClosedSince settings before period
      ∧ ((ofSettings settings).performAll history).window.Holds
          ((outcomesOf period).rtake settings.slidingWindowSize) := by
  induction history using List.reverseRecOn with
  | nil =>
    refine ⟨[], [], rfl, ⟨.inl rfl, fun past hpast => ?_⟩, Window.holds_empty _⟩
    rw [List.prefix_nil.1 hpast]
    exact hclosed
  | append_singleton history x ih =>
    have hsettings : ((ofSettings settings).performAll history).settings = settings :=
      settings_performAll (ofSettings settings) history
    rw [performAll_concat] at hclosed ⊢
    cases windowStep ((ofSettings settings).performAll history) x with
    | records failed houtcome hbefore hwindow _ =>
      obtain ⟨before, period, rfl, hperiod, hholds⟩ := ih hbefore
      refine ⟨before, period ++ [x], List.append_assoc .., hperiod.concat ?_, ?_⟩
      · rw [← List.append_assoc, performAll_concat]
        exact hclosed
      · rw [hwindow, hsettings, outcomesOf_concat, houtcome]
        exact hholds.record failed
    | keeps hnothing hwindow hcloses =>
      have hbefore := hcloses hclosed
      obtain ⟨before, period, rfl, hperiod, hholds⟩ := ih hbefore
      refine ⟨before, period ++ [x], List.append_assoc .., hperiod.concat ?_, ?_⟩
      · rw [← List.append_assoc, performAll_concat]
        exact hclosed
      · rw [hwindow, outcomesOf_concat, hnothing hbefore]
        rwa [Option.toList_none, List.append_nil]
    | clears hbefore hwindow =>
      -- the breaker becomes closed here, and nothing has been recorded since
      refine ⟨history ++ [x], [], (List.append_nil _).symm,
        ⟨.inr ⟨history, x, rfl, ?_⟩, fun past hpast => ?_⟩, ?_⟩
      · rw [hbefore]
        decide
      · rw [List.prefix_nil.1 hpast, List.append_nil, performAll_concat]
        exact hclosed
      · rw [hwindow]
        exact Window.holds_empty _

/-- **The sliding window agrees with the whole history.** Whoever did what in whatever order: if a
breaker is closed, its window holds the last outcomes, as many as the window may hold, of those
that were recorded since the breaker was created or last became closed, oldest first; it has
counted them and the failures among them. When one more is recorded and the oldest is dropped, a
failure is only taken off a count that is not zero. The window holds the last outcomes again then,
and the breaker has opened exactly if they are at least as many as are needed and their failure
rate reaches the threshold. -/
theorem window_performAll (settings : Settings) (history : List TimedOperation)
    (hclosed : ((ofSettings settings).performAll history).state = .closed) :
    let b := (ofSettings settings).performAll history
    ∃ before period, history = before ++ period ∧ ClosedSince settings before period
      ∧ b.window.Holds ((outcomesOf period).rtake settings.slidingWindowSize)
      ∧ (∀ failed, (b.window.push failed).toList.head? = some true →
          0 < (b.window.push failed).failures)
      ∧ ∀ (x : TimedOperation) (failed : Bool), x.operation.outcome? = some failed →
        let after := (b.perform x.time x.operation).2
        let recent := (outcomesOf period ++ [failed]).rtake settings.slidingWindowSize
        after.window.Holds recent
          ∧ (after.state = .opened
            ↔ min settings.minimumNumberOfCalls settings.slidingWindowSize ≤ recent.length
              ∧ settings.failureRateThreshold.le (failureRate (recent.count true) recent.length)
                = true) := by
  intro b
  obtain ⟨before, period, hhistory, hperiod, hholds⟩ := holds_of_closed settings history hclosed
  refine ⟨before, period, hhistory, hperiod, hholds,
    fun failed => (hholds.push failed).failures_pos, ?_⟩
  intro x failed houtcome after recent
  have hsettings : b.settings = settings := settings_performAll (ofSettings settings) history
  have hstep : WindowStep b x after := windowStep b x
  cases hstep with
  | records found hfound hbefore hwindow hopens =>
    obtain rfl : found = failed := Option.some.inj (hfound.symm.trans houtcome)
    rw [hsettings] at hwindow hopens
    have hafter : after.window.Holds recent := by
      rw [hwindow]
      exact hholds.record found
    exact ⟨hafter, hopens.trans (settings.trips_iff hafter)⟩
  | keeps hnothing => cases (hnothing hclosed).symm.trans houtcome
  | clears hbefore => cases hbefore.symm.trans hclosed

/-- Two failures in a row open the breaker, and one trial closes it. -/
def twoWide : Settings :=
  { failureRateThreshold := Number.BinaryFormat.single.ofNat 100, slidingWindowSize := 2,
    minimumNumberOfCalls := 2, waitDurationMs := 0, permittedCallsInHalfOpenState := 1 }

/-- The breaker opens, a failure comes late, its trial succeeds, and three calls are
recorded after that. -/
def reclosed : List TimedOperation :=
  [⟨0, .fail⟩, ⟨0, .fail⟩, ⟨1, .fail⟩, ⟨2, .acquire⟩, ⟨3, .succeed⟩, ⟨4, .fail⟩,
    ⟨4, .succeed⟩, ⟨5, .fail⟩]

/-- Of the three outcomes since it closed the window holds the last two, and one more failure opens
the breaker again. -/
theorem window_performAll_reclosed :
    let b := (ofSettings twoWide).performAll reclosed
    b.state = .closed ∧ b.window.toList = [false, true] ∧ (b.perform 6 .fail).2.state = .opened
      ∧ ∃ before period, reclosed = before ++ period ∧ ClosedSince twoWide before period
        ∧ b.window.Holds ((outcomesOf period).rtake 2)
        ∧ (b.perform 6 .fail).2.window.Holds ((outcomesOf period ++ [true]).rtake 2) := by
  intro b
  have hclosed : b.state = .closed := by decide
  obtain ⟨before, period, hhistory, hperiod, hholds, -, hrecord⟩ :=
    window_performAll twoWide reclosed hclosed
  exact ⟨hclosed, by decide, by decide, before, period, hhistory, hperiod, hholds,
    (hrecord ⟨6, .fail⟩ true rfl).1⟩

end CircuitBreaker
end Gatehouse.Breaker
