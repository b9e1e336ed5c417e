/-
Old records.

A record that has outlived the time to live counts as absent, and it may lie in its slot for a long
time before a purge takes it out. Here nobody can tell. The callers of a store see it through its
live slots (`live?`), which show neither an old record nor its absence. Two stores whose live slots
are the same at a time, and which have noted the same of their claims, give the same answers then
and are alike afterwards (`Alike`); a store and what a purge leaves of it are alike, and remain so
as time goes on because a record does not get younger.

Which record is live is said of histories: it is the one that was completed last, if no claim has
taken its key over since and it is not too old (`live?_run_eq_ready_iff`). As with claims, one
statement about one operation does the work (`Distinct.ready_perform_iff`).
-/
import Gatehouse.Proofs.Idempotency.Histories
import Gatehouse.Proofs.Places

set_option autoImplicit false

namespace Gatehouse.Idempotency.Store

/-- A record has outlived the time to live: its age has reached it. -/
def Outlived (ttl : Option Nat) (now storedAt : Nat) : Prop :=
  ∃ limit, ttl = some limit ∧ limit ≤ now - storedAt

theorem expired_eq_true_iff {s : Store} {now storedAt : Nat} :
    s.expired now storedAt = true ↔ Outlived s.ttl now storedAt := by
  unfold expired Outlived
  cases s.ttl <;> simp

theorem expired_eq_false_iff {s : Store} {now storedAt : Nat} :
    s.expired now storedAt = false ↔ ¬Outlived s.ttl now storedAt := by
  rw [← expired_eq_true_iff, Bool.not_eq_true]

/-- Records do not get younger. -/
theorem Outlived.later {ttl : Option Nat} {now later storedAt : Nat} (h : Outlived ttl now storedAt)
    (hlater : now ≤ later) : Outlived ttl later storedAt := by
  obtain ⟨limit, hlimit, hage⟩ := h
  exact ⟨limit, hlimit, by omega⟩

/-! ## Live slots -/

/-- **The live slot of a key:** what there is for it, unless that is a record that is too old. -/
def live? (s : Store) (now : Nat) (key : String) : Option Slot :=
  (s.slot? key).filter fun slot => !s.stale now slot

theorem live?_congr {s t : Store} {key : String} (hslot : s.slot? key = t.slot? key)
    (httl : s.ttl = t.ttl) (now : Nat) : s.live? now key = t.live? now key := by
  unfold live? stale expired
  rw [hslot, httl]

theorem live?_eq_some_iff {s : Store} {now : Nat} {key : String} {slot : Slot} :
    s.live? now key = some slot ↔ s.slot? key = some slot ∧ s.stale now slot = false := by
  rw [live?, Option.filter_eq_some_iff, Bool.not_eq_true']

theorem live?_eq_pending_iff {s : Store} {now : Nat} {key : String} {n : Nat} :
    s.live? now key = some (.pending n) ↔ s.slot? key = some (.pending n) :=
  live?_eq_some_iff.trans (and_iff_left rfl)

theorem live?_eq_ready_iff {s : Store} {now : Nat} {key : String} {record : Record}
    {storedAt : Nat} :
    s.live? now key = some (.ready record storedAt)
      ↔ s.slot? key = some (.ready record storedAt) ∧ ¬Outlived s.ttl now storedAt :=
  live?_eq_some_iff.trans (and_congr_right' expired_eq_false_iff)

theorem live?_eq_none_iff {s : Store} {now : Nat} {key : String} :
    s.live? now key = none ↔ s.Free key now := by
  unfold live? Free
  rcases s.slot? key with _ | m | ⟨found, foundAt⟩
  · simp
  · simp [Option.filter, stale]
  · cases hexpired : s.expired now foundAt <;> simp [Option.filter, stale, hexpired]

/-- A slot that is live later is live now. -/
theorem live?_later (s : Store) {now later : Nat} (h : now ≤ later) (key : String) :
    s.live? later key = (s.live? now key).filter fun slot => !s.stale later slot := by
  unfold live?
  rw [Option.filter_filter]
  congr 1
  funext slot
  -- what is too old now is too old later
  have holder : s.stale now slot = true → s.stale later slot = true := by
    cases slot with
    | pending n => exact id
    | ready record storedAt =>
      change s.expired now storedAt = true → s.expired later storedAt = true
      rw [expired_eq_true_iff, expired_eq_true_iff]
      exact fun houtlived => houtlived.later h
  cases hnow : s.stale now slot
  · rfl
  · rw [holder hnow]
    rfl

/-- What a purge leaves is what is live. -/
theorem Distinct.slot?_purge_eq_live? {s : Store} (h : s.Distinct) (now : Nat) (key : String) :
    (s.purge now).2.slot? key = s.live? now key :=
  h.slot?_purge now key

/-! ## What callers are told -/

/-- A claim attempt finds the live slot. -/
theorem claim_eq_of_live? (s : Store) (key : String) (now : Nat) :
    (s.claim key now).1
      = match s.live? now key with
        | none => .acquired
        | some (.pending n) => .pending ⟨n⟩
        | some (.ready record _) => .replay record := by
  rcases s.claim_cases key now
    with ⟨hclaim, hfree⟩ | ⟨n, hclaim, hslot⟩ | ⟨record, storedAt, hclaim, hslot, hfresh⟩
  · rw [hclaim, live?_eq_none_iff.2 hfree]
  · rw [hclaim, live?_eq_pending_iff.2 hslot]
  · rw [hclaim, live?_eq_ready_iff.2 ⟨hslot, expired_eq_false_iff.1 hfresh⟩]

theorem get?_eq_of_live? (s : Store) (key : String) (now : Nat) :
    s.get? key now
      = match s.live? now key with
        | some (.ready record _) => some record
        | _ => none := by
  unfold get? live?
  rcases s.slot? key with _ | n | ⟨record, storedAt⟩
  · rfl
  · rfl
  · cases hexpired : s.expired now storedAt <;> simp [Option.filter, stale, hexpired]

theorem claim_eq_replay_iff {s : Store} {key : String} {now : Nat} {record : Record} :
    (s.claim key now).1 = .replay record
      ↔ ∃ storedAt, s.live? now key = some (.ready record storedAt) := by
  rw [claim_eq_of_live?]
  rcases s.live? now key with _ | n | ⟨found, foundAt⟩ <;> simp

theorem get?_eq_some_iff {s : Store} {key : String} {now : Nat} {record : Record} :
    s.get? key now = some record ↔ ∃ storedAt, s.live? now key = some (.ready record storedAt) := by
  rw [get?_eq_of_live?]
  rcases s.live? now key with _ | n | ⟨found, foundAt⟩ <;> simp

/-! ## Stores that cannot be told apart -/

/-- **Two stores are alike** at a time: they have noted the same of their claims, and their live
slots are the same. -/
structure Alike (now : Nat) (s t : Store) : Prop where
  ttl : s.ttl = t.ttl
  claims : s.claims = t.claims
  endings : s.endings = t.endings
  live : ∀ key, s.live? now key = t.live? now key
  distinct : s.Distinct
  distinct' : t.Distinct

namespace Alike

variable {now : Nat} {s t : Store}

theorem refl {s : Store} (h : s.Distinct) (now : Nat) : Alike now s s :=
  ⟨rfl, rfl, rfl, fun _ => rfl, h, h⟩

/-- What is alike remains alike as long as nothing is done. -/
theorem later (h : Alike now s t) {later : Nat} (hlater : now ≤ later) : Alike later s t where
  ttl := h.ttl
  claims := h.claims
  endings := h.endings
  live key := by
    have hstale : s.stale later = t.stale later := by
      funext slot
      cases slot with
      | pending n => rfl
      | ready record storedAt => rw [stale, stale, expired, expired, h.ttl]
    rw [s.live?_later hlater, t.live?_later hlater, h.live key, hstale]
  distinct := h.distinct
  distinct' := h.distinct'

/-- Alike stores have the same claim on a key, or none. -/
theorem pending_cases (h : Alike now s t) (key : String) :
    (∃ n, s.slot? key = some (.pending n) ∧ t.slot? key = some (.pending n))
      ∨ (∀ n, s.slot? key ≠ some (.pending n)) ∧ ∀ n, t.slot? key ≠ some (.pending n) := by
  have hsame : ∀ n, s.slot? key = some (.pending n) ↔ t.slot? key = some (.pending n) := by
    intro n
    rw [← @live?_eq_pending_iff s now key n, h.live key, live?_eq_pending_iff]
  by_cases hpending : ∃ n, s.slot? key = some (.pending n)
  · obtain ⟨n, hn⟩ := hpending
    exact .inl ⟨n, hn, (hsame n).1 hn⟩
  · exact .inr ⟨fun n hn => hpending ⟨n, hn⟩, fun n hn => hpending ⟨n, (hsame n).2 hn⟩⟩

theorem acquires_iff (h : Alike now s t) (claimed key : String) :
    s.Acquires ⟨now, .claim claimed⟩ key ↔ t.Acquires ⟨now, .claim claimed⟩ key := by
  rw [Store.acquires_iff, Store.acquires_iff, ← live?_eq_none_iff, ← live?_eq_none_iff, h.live key]

theorem take (h : Alike now s t) (key : String) : Alike now (s.take key) (t.take key) where
  ttl := h.ttl
  claims := congrArg (· + 1) h.claims
  endings := h.endings
  live other := by
    by_cases heq : key = other
    · subst heq
      rw [live?_eq_pending_iff.2 (slot?_take_self s key), h.claims,
        live?_eq_pending_iff.2 (slot?_take_self t key)]
    · rw [live?_congr (slot?_take_of_ne s heq) rfl, h.live other,
        live?_congr (slot?_take_of_ne t heq) rfl]
  distinct := h.distinct.take key
  distinct' := h.distinct'.take key

theorem endings_endClaim (h : Alike now s t) (key : String) (ending : Ending) :
    (s.endClaim key ending).endings = (t.endClaim key ending).endings := by
  rcases h.pending_cases key with ⟨n, hs, ht⟩ | ⟨hs, ht⟩
  · simp [endClaim, hs, ht, h.endings]
  · rw [endClaim_of_not_pending hs, endClaim_of_not_pending ht, h.endings]

theorem complete (h : Alike now s t) (record : Record) :
    Alike now (s.complete record now) (t.complete record now) where
  ttl := by rw [ttl_complete, ttl_complete, h.ttl]
  claims := by rw [claims_complete, claims_complete, h.claims]
  endings := h.endings_endClaim record.key _
  live other := by
    have httl : (s.complete record now).ttl = (t.complete record now).ttl := by
      rw [ttl_complete, ttl_complete, h.ttl]
    by_cases heq : record.key = other
    · subst heq
      have hslot := (slot?_complete_self s record now).trans (slot?_complete_self t record now).symm
      exact live?_congr hslot httl now
    · have hs := live?_congr (slot?_complete_of_ne s record now heq) (ttl_complete s record now) now
      have ht := live?_congr (slot?_complete_of_ne t record now heq) (ttl_complete t record now) now
      rw [hs, h.live other, ht]
  distinct := h.distinct.complete record now
  distinct' := h.distinct'.complete record now

theorem release (h : Alike now s t) (key : String) : Alike now (s.release key) (t.release key) := by
  rcases h.pending_cases key with ⟨n, hs, ht⟩ | ⟨hs, ht⟩
  · refine ⟨by rw [ttl_release, ttl_release, h.ttl],
      by rw [claims_release, claims_release,
        h.claims], ?_, fun other => ?_, h.distinct.release key, h.distinct'.release key⟩
    · rw [release_of_pending hs, release_of_pending ht, h.endings]
    · by_cases heq : key = other
      · subst heq
        rw [live?, live?, slot?_release_of_pending hs, slot?_release_of_pending ht]
        rfl
      · rw [live?_congr (slot?_release_of_ne s heq) (ttl_release s key), h.live other,
          live?_congr (slot?_release_of_ne t heq) (ttl_release t key)]
  · rw [release_of_not_pending hs, release_of_not_pending ht]
    exact h

/-- **A purge changes nothing that can be seen.** -/
theorem purge (h : Alike now s t) : Alike now (s.purge now).2 t where
  ttl := h.ttl
  claims := h.claims
  endings := h.endings
  live key := by
    rw [← h.live key]
    change ((s.purge now).2.slot? key).filter (fun slot => !s.stale now slot) = s.live? now key
    -- what is live already is filtered once more
    rw [h.distinct.slot?_purge_eq_live? now key, ← s.live?_later (Nat.le_refl now) key]
  distinct := h.distinct.purge now
  distinct' := h.distinct'

/-- **Alike stores give the same answers,** except to purges, and are alike afterwards. -/
theorem perform {x : TimedOperation} (h : Alike x.now s t) (hx : x.operation ≠ .purge) :
    (s.perform x).1 = (t.perform x).1 ∧ Alike x.now (s.perform x).2 (t.perform x).2 := by
  obtain ⟨now, operation⟩ := x
  dsimp only at h
  cases operation with
  | claim key =>
    constructor
    · change Answer.claim (s.claim key now).1 = .claim (t.claim key now).1
      rw [claim_eq_of_live?, claim_eq_of_live?, h.live key]
    · have hsame := h.acquires_iff key key
      rcases s.perform_claim now key with ⟨hs, hafter⟩ | ⟨hs, hafter⟩
      · rcases t.perform_claim now key with ⟨-, hafter'⟩ | ⟨ht, -⟩
        · rw [hafter, hafter']
          exact h.take key
        · exact absurd (hsame.1 hs) ht
      · rcases t.perform_claim now key with ⟨ht, -⟩ | ⟨-, hafter'⟩
        · exact absurd (hsame.2 ht) hs
        · rw [hafter, hafter']
          exact h
  | complete record => exact ⟨rfl, h.complete record⟩
  | release key => exact ⟨rfl, h.release key⟩
  | get key =>
    refine ⟨?_, h⟩
    change Answer.got (s.get? key now) = .got (t.get? key now)
    rw [get?_eq_of_live?, get?_eq_of_live?, h.live key]
  | wait handle =>
    refine ⟨?_, h⟩
    change Answer.polled (s.channel handle).poll = .polled (t.channel handle).poll
    rw [channel, channel, ending?, ending?, h.endings]
  | purge => exact absurd rfl hx

end Alike

/-- Whether an operation is for a caller, and not a purge. -/
def TimedOperation.forCaller (x : TimedOperation) : Bool := x.operation ≠ .purge

/-- **The answers to a history with purges are those to the history without them.** -/
theorem Alike.filter_log {now : Nat} {s t : Store} (h : Alike now s t)
    (history : List TimedOperation) (hordered : history.Pairwise fun x y => x.now ≤ y.now)
    (hlater : ∀ x ∈ history, now ≤ x.now) :
    (s.log history).filter (fun entry => entry.1.forCaller)
      = t.log (history.filter TimedOperation.forCaller) := by
  induction history generalizing now s t with
  | nil => rfl
  | cons x rest ih =>
    obtain ⟨hfirst, hrest⟩ := List.pairwise_cons.1 hordered
    have hx := h.later (hlater x List.mem_cons_self)
    cases hcaller : x.forCaller with
    | true =>
      obtain ⟨hanswer, hafter⟩ := hx.perform (of_decide_eq_true hcaller)
      simp only [log, List.filter_cons, hcaller, if_true]
      rw [hanswer, ih hafter hrest hfirst]
    | false =>
      simp only [log, List.filter_cons, hcaller, Bool.false_eq_true, if_false]
      have hpurge : x.operation = .purge := of_not_not (of_decide_eq_false hcaller)
      have hpurged : Alike x.now (s.perform x).2 t := by
        rw [Store.perform, hpurge]
        exact hx.purge
      exact ih hpurged hrest hfirst

/-! ## What a purge removes -/

/-- **A purge** removes the records that have outlived the time to live, counts them, and
touches nothing else. -/
def RemovesOutlived (s : Store) (now count : Nat) (t : Store) : Prop :=
  ∃ removed : List String, removed.Nodup ∧ removed.length = count
    ∧ (∀ key, key ∈ removed
        ↔ ∃ record storedAt, s.slot? key = some (.ready record storedAt)
          ∧ Outlived s.ttl now storedAt)
    ∧ ∀ key, t.slot? key = if key ∈ removed then none else s.slot? key

theorem stale_eq_true_iff {s : Store} {now : Nat} {slot : Slot} :
    s.stale now slot = true ↔ ∃ record storedAt, slot = .ready record storedAt
      ∧ Outlived s.ttl now storedAt := by
  cases slot with
  | pending n => exact iff_of_false nofun nofun
  | ready record storedAt =>
    change s.expired now storedAt = true ↔ _
    rw [expired_eq_true_iff]
    constructor
    · exact fun houtlived => ⟨record, storedAt, rfl, houtlived⟩
    · rintro ⟨_, _, heq, houtlived⟩
      cases heq
      exact houtlived

theorem Distinct.removesOutlived_purge {s : Store} (h : s.Distinct) (now : Nat) :
    s.RemovesOutlived now (s.purge now).1 (s.purge now).2 := by
  -- the entries that go are those with a stale slot, and a key has one slot
  let gone : Table Slot := s.slots.filter fun entry => s.stale now entry.2
  have hmem : ∀ key, key ∈ gone.keys
      ↔ ∃ slot, s.slot? key = some slot ∧ s.stale now slot = true := by
    intro key
    rw [Table.mem_keys_iff, Table.lookup_filter _ h key]
    simp only [Option.filter_eq_some_iff]
    rfl
  refine ⟨gone.keys, Table.keys_filter_nodup _ h, ?_, fun key => ?_, fun key => ?_⟩
  · have hlength : s.slots.length = gone.length + (s.purge now).2.slots.length :=
      s.slots.length_eq_length_filter_add fun entry => s.stale now entry.2
    change (gone.map (·.1)).length = s.slots.length - (s.purge now).2.slots.length
    rw [List.length_map]
    omega
  · rw [hmem]
    constructor
    · rintro ⟨slot, hslot, hstale⟩
      obtain ⟨record, storedAt, rfl, houtlived⟩ := stale_eq_true_iff.1 hstale
      exact ⟨record, storedAt, hslot, houtlived⟩
    · rintro ⟨record, storedAt, hslot, houtlived⟩
      exact ⟨_, hslot, stale_eq_true_iff.2 ⟨record, storedAt, rfl, houtlived⟩⟩
  · rw [h.slot?_purge now key]
    simp only [hmem key]
    cases hslot : s.slot? key with
    | none => simp
    | some slot => cases hstale : s.stale now slot <;> simp [Option.filter, hstale]

/-! ## Which record is live -/

/-- **An operation supersedes the record of a key:** it completes the key, or takes it over
for a new claim. -/
def Supersedes (s : Store) (x : TimedOperation) (key : String) : Prop :=
  (∃ record, x.operation = .complete record ∧ record.key = key) ∨ s.Acquires x key

/-- **When a key has a record after an operation:** the operation has stored it, or it was there
before, and has not been superseded nor purged as too old. -/
theorem Distinct.ready_perform_iff {s : Store} (h : s.Distinct) (x : TimedOperation) (key : String)
    (record : Record) (storedAt : Nat) :
    (s.perform x).2.slot? key = some (.ready record storedAt)
      ↔ x = ⟨storedAt, .complete record⟩ ∧ record.key = key
        ∨ s.slot? key = some (.ready record storedAt) ∧ ¬s.Supersedes x key
          ∧ ¬(x.operation = .purge ∧ Outlived s.ttl x.now storedAt) := by
  obtain ⟨now, operation⟩ := x
  cases operation with
  | claim claimed =>
    by_cases heq : claimed = key
    · subst heq
      rcases s.perform_claim now claimed with ⟨hacquires, hafter⟩ | ⟨hacquires, hafter⟩
      · rw [hafter, slot?_take_self]
        simp [Supersedes, hacquires]
      · rw [hafter]
        simp [Supersedes, hacquires]
    · have hother : ¬s.Acquires ⟨now, .claim claimed⟩ key :=
        not_acquires fun h => heq (Operation.claim.inj h)
      rw [slot?_perform_claim_of_ne s now heq]
      simp [Supersedes, hother]
  | complete completed =>
    have hother : ¬s.Acquires ⟨now, .complete completed⟩ key := not_acquires nofun
    change (s.complete completed now).slot? key = _ ↔ _
    by_cases heq : completed.key = key
    · subst heq
      rw [slot?_complete_self]
      simp only [Option.some.injEq, Slot.ready.injEq, Supersedes, TimedOperation.mk.injEq,
        Operation.complete.injEq]
      grind
    · rw [slot?_complete_of_ne s completed now heq]
      simp only [Supersedes, hother, TimedOperation.mk.injEq, Operation.complete.injEq]
      grind
  | release released =>
    have hother : ¬s.Acquires ⟨now, .release released⟩ key := not_acquires nofun
    change (s.release released).slot? key = _ ↔ _
    rw [ready_release_iff]
    simp [Supersedes, hother]
  | get found =>
    have hother : ¬s.Acquires ⟨now, .get found⟩ key := not_acquires nofun
    change s.slot? key = _ ↔ _
    simp [Supersedes, hother]
  | wait handle =>
    have hother : ¬s.Acquires ⟨now, .wait handle⟩ key := not_acquires nofun
    change s.slot? key = _ ↔ _
    simp [Supersedes, hother]
  | purge =>
    have hother : ¬s.Acquires ⟨now, .purge⟩ key := not_acquires nofun
    change (s.purge now).2.slot? key = _ ↔ _
    rw [h.slot?_purge_eq_live? now key, live?_eq_ready_iff]
    simp [Supersedes, hother]

/-- **The record that was completed last** for a key in a history, and when, if nothing has
superseded it since. -/
def LastCompleted (ttl : Option Nat) (history : List TimedOperation) (key : String)
    (record : Record) (storedAt : Nat) : Prop :=
  ∃ before x after, history = before ++ x :: after
    ∧ (x = ⟨storedAt, .complete record⟩ ∧ record.key = key)
    ∧ ∀ first y rest, after = first ++ y :: rest →
      ¬((ofTtl ttl).run (before ++ x :: first)).Supersedes y key

/-- One more operation: it has stored the record, or it leaves the one that was completed last. -/
theorem lastCompleted_concat_iff {ttl : Option Nat} {history : List TimedOperation}
    {x : TimedOperation} {key : String} {record : Record} {storedAt : Nat} :
    LastCompleted ttl (history ++ [x]) key record storedAt
      ↔ (x = ⟨storedAt, .complete record⟩ ∧ record.key = key)
        ∨ LastCompleted ttl history key record storedAt
          ∧ ¬((ofTtl ttl).run history).Supersedes x key := by
  unfold LastCompleted
  rw [exists_place_concat_iff, or_comm]
  refine or_congr (and_iff_left fun first y rest hplace => ?_) ?_
  · cases first <;> cases hplace
  constructor
  · rintro ⟨before, y, after, rfl, hy, hsince⟩
    obtain ⟨hearlier, hlast⟩ := forall_place_concat_iff.1 hsince
    exact ⟨⟨before, y, after, rfl, hy, hearlier⟩, hlast⟩
  · rintro ⟨⟨before, y, after, rfl, hy, hearlier⟩, hlast⟩
    exact ⟨before, y, after, rfl, hy, forall_place_concat_iff.2 ⟨hearlier, hlast⟩⟩

/-- **Which record is live:** the one that was completed last, unless something has superseded it
or it is too old. -/
theorem live?_run_eq_ready_iff {ttl : Option Nat} {history : List TimedOperation} {now : Nat}
    (hpast : ∀ x ∈ history, x.now ≤ now) {key : String} {record : Record} {storedAt : Nat} :
    ((ofTtl ttl).run history).live? now key = some (.ready record storedAt)
      ↔ LastCompleted ttl history key record storedAt ∧ ¬Outlived ttl now storedAt := by
  induction history using List.reverseRecOn with
  | nil =>
    refine iff_of_false nofun ?_
    rintro ⟨⟨before, x, after, hplace, -⟩, -⟩
    simp at hplace
  | append_singleton history x ih =>
    have ih := ih fun y hy => hpast y (List.mem_append_left [x] hy)
    have hx : x.now ≤ now := hpast x (List.mem_append_right history List.mem_cons_self)
    have hdistinct := (distinct_ofTtl ttl).run history
    rw [live?_eq_ready_iff, ttl_run] at ih
    rw [live?_eq_ready_iff, ttl_run, run_concat, hdistinct.ready_perform_iff, ttl_run,
      lastCompleted_concat_iff]
    -- a record that a purge has found too old is too old ever since
    have hlater : Outlived ttl x.now storedAt →
        Outlived ttl now storedAt := fun houtlived => houtlived.later hx
    change _ ∧ ¬Outlived ttl now storedAt ↔ _ at ih
    change _ ∧ ¬Outlived ttl now storedAt ↔ _
    tauto

/-- **Purges are unseen, and expiry is exact.** Over a history whose times do not decrease:

* whoever is not purging is told the same as if there were no purges;
* a purge removes and counts the records that have outlived the time to live, and
  touches nothing else;
* a record is got, or given to one who claims its key, exactly if it is the one that was
  completed last for the key, no claim has taken the key over since, and it has not outlived
  the time to live. -/
theorem purges_unseen_and_expiry_exact (ttl : Option Nat) (history : List TimedOperation)
    (hordered : history.Pairwise fun x y => x.now ≤ y.now) :
    ((ofTtl ttl).log history).filter (fun entry => entry.1.forCaller)
        = (ofTtl ttl).log (history.filter TimedOperation.forCaller)
      ∧ ∀ before x after, history = before ++ x :: after →
        let s := (ofTtl ttl).run before
        (x.operation = .purge →
          ∃ count, (s.perform x).1 = .purged count ∧ s.RemovesOutlived x.now count (s.perform x).2)
        ∧ ∀ key record,
          (x.operation = .get key → ((s.perform x).1 = .got (some record)
            ↔ ∃ storedAt, LastCompleted ttl before key record storedAt
              ∧ ¬Outlived ttl x.now storedAt))
          ∧ (x.operation = .claim key → ((s.perform x).1 = .claim (.replay record)
            ↔ ∃ storedAt, LastCompleted ttl before key record storedAt
              ∧ ¬Outlived ttl x.now storedAt)) := by
  refine ⟨(Alike.refl (distinct_ofTtl ttl) 0).filter_log history hordered fun _ _ => Nat.zero_le _,
    ?_⟩
  rintro before ⟨now, operation⟩ after rfl s
  have hpast : ∀ y ∈ before, y.now ≤ now := fun y hy =>
    (List.pairwise_append.1 hordered).2.2 y hy _ List.mem_cons_self
  have hdistinct : s.Distinct := (distinct_ofTtl ttl).run before
  refine ⟨?_, fun key record => ⟨?_, ?_⟩⟩
  · rintro rfl
    exact ⟨_, rfl, hdistinct.removesOutlived_purge now⟩
  · rintro rfl
    change Answer.got (s.get? key now) = _ ↔ _
    rw [Answer.got.injEq, get?_eq_some_iff]
    exact exists_congr fun storedAt => live?_run_eq_ready_iff hpast
  · rintro rfl
    change Answer.claim (s.claim key now).1 = _ ↔ _
    rw [Answer.claim.injEq, claim_eq_replay_iff]
    exact exists_congr fun storedAt => live?_run_eq_ready_iff hpast

/-- A record is got one moment before it is too old. At the next moment a purge removes it, and the
claim that follows would have found nothing anyway. -/
theorem purges_unseen_and_expiry_exact_got :
    let record : Record := { key := "k", status := ⟨201⟩, headers := [], body := [] }
    let before : List TimedOperation := [⟨0, .claim "k"⟩, ⟨1, .complete record⟩]
    let after : List TimedOperation := [⟨11, .purge⟩, ⟨11, .claim "k"⟩]
    let history := before ++ ⟨10, .get "k"⟩ :: after
    let got := (ofTtl (some 10)).run (before ++ [⟨10, .get "k"⟩])
    history.Pairwise (fun x y => x.now ≤ y.now)
      ∧ (((ofTtl (some 10)).log history).filter fun entry => entry.1.forCaller).map (·.2)
          = [.claim .acquired, .stored record, .got (some record), .claim .acquired]
      ∧ got.RemovesOutlived 11 1 (got.perform ⟨11, .purge⟩).2
      ∧ ∃ storedAt, LastCompleted (some 10) before "k" record storedAt
        ∧ ¬Outlived (some 10) 10 storedAt := by
  intro record before after history got
  have hordered : history.Pairwise fun x y => x.now ≤ y.now := by decide +kernel
  obtain ⟨hlog, hplaces⟩ := purges_unseen_and_expiry_exact (some 10) history hordered
  obtain ⟨-, hgets⟩ := hplaces before ⟨10, .get "k"⟩ after rfl
  refine ⟨hordered, ?_, ?_, ((hgets "k" record).1 rfl).1 (by decide +kernel)⟩
  · rw [hlog]
    decide +kernel
  · obtain ⟨hpurges, -⟩ := hplaces (before ++ [⟨10, .get "k"⟩]) ⟨11, .purge⟩ [⟨11, .claim "k"⟩] rfl
    obtain ⟨count, hcount, hremoves⟩ := hpurges rfl
    have hone : (got.perform ⟨11, .purge⟩).1 = .purged 1 := by decide +kernel
    cases hone.symm.trans hcount
    exact hremoves

end Gatehouse.Idempotency.Store
