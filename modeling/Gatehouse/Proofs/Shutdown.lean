/-
Who learns of a shutdown.

The broadcast keeps the latest trigger only, and of each subscriber how many triggers it has
accounted for. Here it is compared with the whole history: which triggers came after a subscription
(`due`), and how many of them the subscriber has been told of, by signals and by reports of missed
ones (`told`). After every history the two differ by what the subscriber is still owed, and it is
owed nothing exactly if its next receive is quiet (`balanced_run`, `receive_quiet_iff`): no trigger
is lost on the way, and none is told of twice.

What is lost is lost at the subscription. A subscriber is never owed a trigger that came before it,
so one that comes after the last trigger waits for good (`not_learns_lateSubscriber`). `learns_iff`
says of every trigger and every subscriber whether the one learns of the other.
-/
import Gatehouse.Shutdown
import Mathlib.Data.List.Induction

set_option autoImplicit false

namespace Gatehouse.Shutdown

/-! ## Histories -/

/-- **What is done** through a handle, or by a subscriber. It makes no difference through which
handle: all of them are the same broadcast. -/
inductive Operation where
  | clone (handle : Nat)
  | subscribe (handle : Nat)
  | trigger (handle : Nat)
  | receive (subscriber : Nat)
  deriving DecidableEq, Repr

/-- The broadcast after an operation. -/
def perform (s : Shutdown) : Operation → Shutdown
  | .clone _ => s.clone.2
  | .subscribe _ => s.subscribe.2
  | .trigger _ => s.trigger
  | .receive subscriber => (s.receive subscriber).2

/-- The broadcast after a history. -/
def run (s : Shutdown) (history : List Operation) : Shutdown := history.foldl perform s

theorem run_concat (s : Shutdown) (history : List Operation) (x : Operation) :
    s.run (history ++ [x]) = (s.run history).perform x := by
  rw [run, List.foldl_append]
  rfl

/-! ## The triggers that a subscriber should learn of -/

def Operation.isSubscribe : Operation → Bool
  | .subscribe _ => true
  | .clone _ | .trigger _ | .receive _ => false

def Operation.isTrigger : Operation → Bool
  | .trigger _ => true
  | .clone _ | .subscribe _ | .receive _ => false

/-- How many subscribers there are. -/
def subscriptions (history : List Operation) : Nat := history.countP Operation.isSubscribe

/-- What is done after a subscription; subscribers are numbered in the order in which they come. -/
def sinceSubscription : Nat → List Operation → List Operation
  | _, [] => []
  | 0, .subscribe _ :: rest => rest
  | i + 1, .subscribe _ :: rest => sinceSubscription i rest
  | i, .clone _ :: rest | i, .trigger _ :: rest | i, .receive _ :: rest => sinceSubscription i rest

/-- **How many triggers come after a subscription.** -/
def due (i : Nat) (history : List Operation) : Nat :=
  (sinceSubscription i history).countP Operation.isTrigger

theorem subscriptions_concat (history : List Operation) (x : Operation) :
    subscriptions (history ++ [x]) = subscriptions history + if x.isSubscribe then 1 else 0 := by
  rw [subscriptions, List.countP_append, List.countP_singleton]
  rfl

theorem sinceSubscription_concat (i : Nat) (history : List Operation) (x : Operation) :
    sinceSubscription i (history ++ [x])
      = if i < subscriptions history then sinceSubscription i history ++ [x] else [] := by
  induction history generalizing i with
  | nil => cases x <;> cases i <;> rfl
  | cons y rest ih =>
    cases y with
    | subscribe handle =>
      have hone : subscriptions (.subscribe handle :: rest) = subscriptions rest + 1 :=
        List.countP_cons_of_pos rfl
      cases i with
      | zero =>
        rw [hone, if_pos (Nat.succ_pos _)]
        rfl
      | succ i =>
        simp only [hone, Nat.add_lt_add_iff_right]
        exact ih i
    | clone handle => exact ih i
    | trigger handle => exact ih i
    | receive subscriber => exact ih i

theorem sinceSubscription_of_le {i : Nat} {history : List Operation}
    (h : subscriptions history ≤ i) :
    sinceSubscription i history = [] := by
  induction history using List.reverseRecOn with
  | nil => rfl
  | append_singleton history x _ =>
    rw [subscriptions_concat] at h
    rw [sinceSubscription_concat, if_neg (by omega)]

/-- A trigger is due to those who have subscribed before. -/
theorem due_concat (i : Nat) (history : List Operation) (x : Operation) :
    due i (history ++ [x]) = due i history
      + if i < subscriptions history ∧ x.isTrigger = true then 1 else 0 := by
  rw [due, sinceSubscription_concat, due]
  by_cases h : i < subscriptions history
  · rw [if_pos h, List.countP_append, List.countP_singleton]
    simp only [h, true_and]
  · rw [if_neg h, sinceSubscription_of_le (Nat.le_of_not_lt h), if_neg (fun hboth => h hboth.1)]
    rfl

theorem due_le_append (i : Nat) (before after : List Operation) :
    due i before ≤ due i (before ++ after) := by
  induction after using List.reverseRecOn with
  | nil => exact Nat.le_of_eq (by rw [List.append_nil])
  | append_singleton after x ih =>
    rw [← List.append_assoc, due_concat]
    exact Nat.le_trans ih (Nat.le_add_right _ _)

/-! ## What a subscriber is told -/

/-- How many triggers a notice tells of. -/
def Notice.triggers : Notice → Nat
  | .quiet => 0
  | .signal => 1
  | .lagged missed => missed

/-- How many triggers an operation tells a subscriber of. -/
def tells (s : Shutdown) (i : Nat) : Operation → Nat
  | .receive subscriber => if subscriber = i then (s.receive subscriber).1.triggers else 0
  | .clone _ | .subscribe _ | .trigger _ => 0

def toldFrom (s : Shutdown) (i : Nat) : List Operation → Nat
  | [] => 0
  | x :: rest => s.tells i x + (s.perform x).toldFrom i rest

/-- **How many triggers a subscriber has been told of** in the course of a history. -/
def told (i : Nat) (history : List Operation) : Nat := start.toldFrom i history

theorem toldFrom_concat (s : Shutdown) (i : Nat) (history : List Operation) (x : Operation) :
    s.toldFrom i (history ++ [x]) = s.toldFrom i history + (s.run history).tells i x := by
  induction history generalizing s with
  | nil => exact Nat.add_comm (s.tells i x) 0
  | cons y rest ih =>
    have hstep := ih (s.perform y)
    simp only [List.cons_append, toldFrom, hstep, Nat.add_assoc]
    rfl

/-- How many triggers a subscriber has still to be told of. -/
def owed (s : Shutdown) (i : Nat) : Nat :=
  match s.seen[i]? with
  | none => 0
  | some seen => s.triggers - seen

/-- A notice tells of some triggers, and leaves the others. -/
theorem notice_balance {triggers seen : Nat} (h : seen ≤ triggers) :
    (notice triggers seen).2 ≤ triggers
      ∧ (notice triggers seen).1.triggers + (triggers - (notice triggers seen).2)
        = triggers - seen := by
  unfold notice
  split
  · exact ⟨h, Nat.zero_add _⟩
  · split
    · refine ⟨Nat.le_refl _, ?_⟩
      simp only [Notice.triggers]
      omega
    · refine ⟨Nat.sub_le _ _, ?_⟩
      simp only [Notice.triggers]
      omega

theorem receive_of_none {s : Shutdown} {subscriber : Nat} (h : s.seen[subscriber]? = none) :
    s.receive subscriber = (.quiet, s) := by
  rw [receive, h]

theorem receive_of_some {s : Shutdown} {subscriber seen : Nat}
    (h : s.seen[subscriber]? = some seen) :
    s.receive subscriber
      = ((notice s.triggers seen).1,
          { s with seen := s.seen.set subscriber (notice s.triggers seen).2 }) := by
  rw [receive, h]

/-- **Nothing is received exactly if nothing is owed.** -/
theorem receive_quiet_iff (s : Shutdown) (i : Nat) : (s.receive i).1 = .quiet ↔ s.owed i = 0 := by
  cases hseen : s.seen[i]? with
  | none =>
    rw [receive_of_none hseen, owed, hseen]
    exact iff_of_true rfl rfl
  | some seen =>
    rw [receive_of_some hseen, owed, hseen]
    dsimp only
    rw [Nat.sub_eq_zero_iff_le, notice]
    split
    · exact iff_of_true rfl ‹_›
    · split
      · exact iff_of_false nofun ‹_›
      · exact iff_of_false nofun ‹_›

/-! ## One operation -/

/-- **Invariant:** what subscribers have been told of and what they are owed make up what
is due to them. -/
structure Balanced (history : List Operation) (s : Shutdown) : Prop where
  subscribers : s.seen.length = subscriptions history
  bounded : ∀ seen ∈ s.seen, seen ≤ s.triggers
  balance : ∀ i, told i history + s.owed i = due i history

theorem owed_of_le {s : Shutdown} {i : Nat} (h : s.seen.length ≤ i) : s.owed i = 0 := by
  rw [owed, List.getElem?_eq_none h]

/-- Who subscribes is owed nothing. -/
theorem owed_subscribe (s : Shutdown) (i : Nat) : s.subscribe.2.owed i = s.owed i := by
  rcases Nat.lt_trichotomy i s.seen.length with hlt | rfl | hgt
  · rw [owed, owed, subscribe, List.getElem?_append_left hlt]
  · rw [owed_of_le (Nat.le_refl _), owed, subscribe, List.getElem?_concat_length]
    exact Nat.sub_self s.triggers
  · have hafter : s.subscribe.2.seen.length ≤ i := by
      rw [subscribe, List.length_append, List.length_singleton]
      exact hgt
    rw [owed_of_le hafter, owed_of_le (Nat.le_of_lt hgt)]

/-- A trigger is owed to every subscriber that there is. -/
theorem owed_trigger {s : Shutdown} (h : ∀ seen ∈ s.seen, seen ≤ s.triggers) (i : Nat) :
    s.trigger.owed i = s.owed i + if i < s.seen.length then 1 else 0 := by
  by_cases hlt : i < s.seen.length
  · have hseen : s.seen[i]? = some s.seen[i] := List.getElem?_eq_getElem hlt
    rw [if_pos hlt, owed, owed, trigger, hseen]
    exact Nat.sub_add_comm (h _ (List.getElem_mem hlt))
  · have hle := Nat.le_of_not_lt hlt
    rw [if_neg hlt, owed_of_le hle, owed_of_le (s := s.trigger) hle]

/-- A receive takes from what is owed to the subscriber what it is told of, and leaves the other
subscribers alone. -/
theorem tells_add_owed_receive {s : Shutdown} (h : ∀ seen ∈ s.seen, seen ≤ s.triggers)
    (subscriber i : Nat) :
    s.tells i (.receive subscriber) + (s.receive subscriber).2.owed i = s.owed i := by
  rw [tells]
  cases hseen : s.seen[subscriber]? with
  | none =>
    rw [receive_of_none hseen]
    simp only [Notice.triggers, ite_self, Nat.zero_add]
  | some seen =>
    rw [receive_of_some hseen]
    by_cases hself : subscriber = i
    · subst hself
      have hlt : subscriber < s.seen.length := (List.getElem?_eq_some_iff.1 hseen).1
      rw [if_pos rfl, owed, owed, List.getElem?_set_self hlt, hseen]
      exact (notice_balance (h seen (List.mem_of_getElem? hseen))).2
    · rw [if_neg hself, Nat.zero_add, owed, owed, List.getElem?_set_ne hself]

theorem bounded_receive {s : Shutdown} (h : ∀ seen ∈ s.seen, seen ≤ s.triggers) (subscriber : Nat) :
    ∀ seen ∈ (s.receive subscriber).2.seen, seen ≤ (s.receive subscriber).2.triggers := by
  cases hfound : s.seen[subscriber]? with
  | none =>
    rw [receive_of_none hfound]
    exact h
  | some old =>
    rw [receive_of_some hfound]
    intro seen hseen
    rcases List.mem_or_eq_of_mem_set hseen with hkept | rfl
    · exact h seen hkept
    · exact (notice_balance (h old (List.mem_of_getElem? hfound))).1

theorem length_receive (s : Shutdown) (subscriber : Nat) :
    (s.receive subscriber).2.seen.length = s.seen.length := by
  cases hseen : s.seen[subscriber]? with
  | none => rw [receive_of_none hseen]
  | some seen =>
    rw [receive_of_some hseen]
    exact List.length_set

/-- **Every operation keeps the balance.** -/
theorem Balanced.step {history : List Operation} (h : Balanced history (start.run history))
    (x : Operation) :
    Balanced (history ++ [x]) ((start.run history).perform x) := by
  have hbalance (i : Nat) : told i (history ++ [x]) + (start.run history).owed i
      = due i history + (start.run history).tells i x := by
    rw [told, toldFrom_concat, ← h.balance i, told, Nat.add_right_comm]
  cases x with
  | clone handle =>
    refine ⟨?_, h.bounded, fun i => ?_⟩
    · rw [subscriptions_concat]
      exact h.subscribers
    · rw [due_concat, if_neg (fun hboth => nomatch hboth.2)]
      exact hbalance i
  | subscribe handle =>
    refine ⟨?_, fun seen hseen => ?_, fun i => ?_⟩
    · rw [subscriptions_concat, ← h.subscribers]
      exact List.length_append
    · rcases List.mem_append.1 hseen with hold | hnew
      · exact h.bounded seen hold
      · exact Nat.le_of_eq (List.mem_singleton.1 hnew)
    · rw [due_concat, if_neg (fun hboth => nomatch hboth.2)]
      exact (congrArg (_ + ·) (owed_subscribe _ i)).trans (hbalance i)
  | trigger handle =>
    refine ⟨?_, fun seen hseen => Nat.le_succ_of_le (h.bounded seen hseen), fun i => ?_⟩
    · rw [subscriptions_concat]
      exact h.subscribers
    · have howed := owed_trigger h.bounded i
      rw [h.subscribers] at howed
      rw [due_concat, perform, howed, ← Nat.add_assoc, hbalance i]
      simp only [tells, Operation.isTrigger, and_true, Nat.add_zero]
  | receive subscriber =>
    refine ⟨?_, bounded_receive h.bounded subscriber, fun i => ?_⟩
    · rw [subscriptions_concat]
      exact (length_receive _ subscriber).trans h.subscribers
    · have howed := tells_add_owed_receive h.bounded subscriber i
      have hbefore := hbalance i
      rw [due_concat, if_neg (fun hboth => nomatch hboth.2), perform]
      omega

/-- **After every history** what is due to a subscriber is what it has been told of and
what it is owed. -/
theorem balanced_run (history : List Operation) : Balanced history (start.run history) := by
  induction history using List.reverseRecOn with
  | nil => exact ⟨rfl, nofun, fun _ => rfl⟩
  | append_singleton history x ih =>
    rw [run_concat]
    exact ih.step x

/-! ## Who learns of a trigger -/

/-- **A subscriber has received a trigger:** it had subscribed before, and has been told of as many
triggers since then as there were up to this one. -/
def HasReceived (before : List Operation) (handle : Nat) (after : List Operation)
    (subscriber : Nat) : Prop :=
  subscriber < subscriptions before
    ∧ due subscriber (before ++ [.trigger handle])
      ≤ told subscriber (before ++ .trigger handle :: after)

/-- **A subscriber learns of a trigger:** it has received it, or the next receive is a signal or a
report of missed triggers. -/
def Learns (before : List Operation) (handle : Nat) (after : List Operation)
    (subscriber : Nat) : Prop :=
  HasReceived before handle after subscriber
    ∨ ((start.run (before ++ .trigger handle :: after)).receive subscriber).1 ≠ .quiet

instance (before : List Operation) (handle : Nat) (after : List Operation) (subscriber : Nat) :
    Decidable (HasReceived before handle after subscriber) :=
  inferInstanceAs (Decidable (_ ∧ _))

instance (before : List Operation) (handle : Nat) (after : List Operation) (subscriber : Nat) :
    Decidable (Learns before handle after subscriber) :=
  inferInstanceAs (Decidable (_ ∨ _))

/-- The next receive is quiet exactly if the subscriber has been told of all that is due to it. -/
theorem not_quiet_iff (history : List Operation) (i : Nat) :
    ((start.run history).receive i).1 ≠ .quiet ↔ told i history < due i history := by
  rw [Ne, receive_quiet_iff, ← (balanced_run history).balance i]
  omega

/-- **Who learns of a trigger.** After every history and for each trigger in it: whoever had
subscribed before the trigger has received it or is told on the next receive. Any other subscriber
is told on the next receive only of a trigger that came later still, after its own subscription, and
that it has not been told of yet. -/
theorem learns_iff (before : List Operation) (handle : Nat) (after : List Operation)
    (subscriber : Nat) :
    Learns before handle after subscriber
      ↔ subscriber < subscriptions before
        ∨ told subscriber (before ++ .trigger handle :: after)
          < due subscriber (before ++ .trigger handle :: after) := by
  rw [Learns, not_quiet_iff]
  constructor
  · rintro (hreceived | howed)
    · exact .inl hreceived.1
    · exact .inr howed
  · rintro (hearly | howed)
    · -- what is due after the trigger is due after the whole history
      have hmono := due_le_append subscriber (before ++ [.trigger handle]) after
      rw [List.append_assoc, List.singleton_append] at hmono
      rcases Nat.lt_or_ge (told subscriber (before ++ .trigger handle :: after))
        (due subscriber (before ++ [.trigger handle])) with hnot | hreceived
      · exact .inr (Nat.lt_of_lt_of_le hnot hmono)
      · exact .inl ⟨hearly, hreceived⟩
    · exact .inr howed

/-- Who subscribes after the only trigger never learns of it. -/
theorem not_learns_lateSubscriber :
    ¬∀ (before : List Operation) (handle : Nat) (after : List Operation) (subscriber : Nat),
      subscriber < subscriptions (before ++ .trigger handle :: after) →
        Learns before handle after subscriber := by
  intro h
  have hlearns : Learns [] 0 [.subscribe 0] 0 := h [] 0 [.subscribe 0] 0 (by decide)
  revert hlearns
  decide

end Gatehouse.Shutdown
