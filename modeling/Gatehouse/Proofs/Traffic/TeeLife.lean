/-
The life of a tee: some polls, and then it is dropped.

What a tee does in its life is said in terms of the body behind it alone: what that yields, poll by
poll, and when it announces its end (`Source.polls`, `EndsAt`). After every poll the copy holds the
first bytes of all the data yielded so far, whatever frames it came in. The hook is called once. The
first poll that ends the reading calls it, and if there is none the drop does; no poll after that
calls it again, though a reader may well go on after a failure or after the end.

A hook may look at the copy when it is called, so the order of things within one poll matters: the
data of the poll is copied, and then the hook is called. `Tee.poll` hands back what the hook is told
and leaves the order open. `Tee.pollInOrder` has it, and `Tee.pollInOrder_eq` says that it is the
same poll, with the call made last. After that the invariant has two halves. `Follows` holds with a
hook and without, and is kept because a copy of one poll more is the old copy with that poll's data;
`Told` is about the hook, and is kept because the first poll that ends the reading is the one that
finds the hook unspent.
-/
import Gatehouse.Proofs.Traffic.DiagnosticAgreement

set_option autoImplicit false

namespace Gatehouse

open Gatehouse.Http

/-! ## What a body yields -/

namespace Http.Source

variable {σ : Type} (src : Source σ) (body : σ)

/-- The body after some polls. -/
def after : Nat → σ
  | 0 => body
  | n + 1 => (src.poll (after n)).2

/-- What a poll yields that comes after so many others. -/
def pollAt (n : Nat) : Poll := (src.poll (src.after body n)).1

/-- What the first polls yield, in order. -/
def polls (n : Nat) : List Poll := (List.range n).map (src.pollAt body)

theorem polls_succ (n : Nat) :
    src.polls body (n + 1) = src.polls body n ++ [src.pollAt body n] := by
  rw [polls, List.range_succ, List.map_append]
  rfl

end Http.Source

namespace Traffic

variable {σ : Type}

/-- **A poll ends the reading of a body,** and how: it fails, it yields the end, or it yields a
frame after which the end is announced. -/
inductive EndsAt (src : Source σ) (body : σ) (n : Nat) : BodyOutcome → Prop where
  | failure (error : String) (h : src.pollAt body n = .failure error) : EndsAt src body n .failed
  | ended (h : src.pollAt body n = .ended) : EndsAt src body n .completed
  | lastFrame (frame : Frame) (h : src.pollAt body n = .frame frame)
      (hend : src.isEnd (src.after body (n + 1)) = true) : EndsAt src body n .completed

/-- The first poll that ends the reading. -/
def FirstEnding (src : Source σ) (body : σ) (n : Nat) (outcome : BodyOutcome) : Prop :=
  EndsAt src body n outcome ∧ ∀ k < n, ∀ other, ¬EndsAt src body k other

theorem endsAt_iff {src : Source σ} {body : σ} {n : Nat} {outcome : BodyOutcome} :
    EndsAt src body n outcome
      ↔ Tee.ending src (src.poll (src.after body n)).1 (src.poll (src.after body n)).2
        = some outcome := by
  have hpoll : (src.poll (src.after body n)).1 = src.pollAt body n := rfl
  have hafter : (src.poll (src.after body n)).2 = src.after body (n + 1) := rfl
  rw [hpoll, hafter]
  constructor
  · intro h
    cases h with
    | failure error h => rw [h]; rfl
    | ended h => rw [h]; rfl
    | lastFrame frame h hend => rw [h, Tee.ending, if_pos hend]
  · intro h
    cases hresult : src.pollAt body n with
    | pending => rw [hresult] at h; cases h
    | failure error => rw [hresult] at h; cases h; exact .failure error hresult
    | ended => rw [hresult] at h; cases h; exact .ended hresult
    | frame frame =>
      rw [hresult, Tee.ending] at h
      split at h
      · rename_i hend
        cases h
        exact .lastFrame frame hresult hend
      · cases h

/-- Among some polls there is a first that ends the reading, or none does. -/
theorem exists_firstEnding_or (src : Source σ) (body : σ) (n : Nat) :
    (∃ k outcome, k < n ∧ FirstEnding src body k outcome)
      ∨ ∀ k < n, ∀ outcome, ¬EndsAt src body k outcome := by
  induction n with
  | zero => exact .inr fun k hk => absurd hk (Nat.not_lt_zero k)
  | succ n ih =>
    rcases ih with ⟨k, outcome, hk, hfirst⟩ | hnone
    · exact .inl ⟨k, outcome, by omega, hfirst⟩
    · by_cases hlast : ∃ outcome, EndsAt src body n outcome
      · obtain ⟨outcome, hends⟩ := hlast
        exact .inl ⟨n, outcome, by omega, hends, hnone⟩
      · refine .inr fun k hk outcome hends => ?_
        by_cases hkn : k = n
        · subst hkn
          exact hlast ⟨outcome, hends⟩
        · exact hnone k (by omega) outcome hends

theorem FirstEnding.lt_succ_cases {src : Source σ} {body : σ} {n k : Nat} {outcome : BodyOutcome}
    (hk : k < n + 1) (h : FirstEnding src body k outcome) :
    (k < n ∧ FirstEnding src body k outcome)
      ∨ (k = n ∧ EndsAt src body n outcome ∧ ∀ j < n, ∀ other, ¬EndsAt src body j other) := by
  by_cases hkn : k = n
  · subst hkn
    exact .inr ⟨rfl, h⟩
  · exact .inl ⟨by omega, h⟩

/-! ## Copies -/

/-- **A copy as it should be:** the first bytes, as many as the limit allows, and whether
there were more. -/
def CaptureBuffer.holding (limit : Nat) (bytes : Bytes) : CaptureBuffer :=
  { limit, data := bytes.take limit, truncated := decide (limit < bytes.length) }

theorem copyOf_eq_holding (limit : Nat) (polls : List Poll) :
    copyOf limit polls = .holding limit (readBytes polls) := by
  have hlimit := copyOf_limit limit polls
  have hdata := copyOf_data limit polls
  have htruncated := copyOf_truncated limit polls
  generalize copyOf limit polls = copy at hlimit hdata htruncated
  obtain ⟨_, _, _⟩ := copy
  dsimp only at hlimit hdata htruncated
  rw [hlimit, hdata, htruncated]
  rfl

/-- A copy takes the data of one poll more. -/
theorem holding_append (limit : Nat) (polls : List Poll) (p : Poll) :
    (CaptureBuffer.holding limit (readBytes polls)).append p.bytes
      = .holding limit (readBytes (polls ++ [p])) := by
  rw [← copyOf_eq_holding, ← copyOf_eq_holding, copyOf_concat]

/-! ## Polls in their order -/

/-- **Call of a hook:** what it is told, and the copy that it finds. -/
structure HookCall where
  outcome : BodyOutcome
  copy : CaptureBuffer
  deriving DecidableEq, Repr

namespace Tee

/-- The data of a poll goes into the copy. -/
def copyData (t : Tee σ) (result : Poll) : Tee σ :=
  match result with
  | .frame (.data bytes) => { t with capture := t.capture.append bytes }
  | _ => t

/-- The hook is called, unless it has been called before. -/
def callHook (t : Tee σ) (outcome : BodyOutcome) : Option HookCall × Tee σ :=
  if t.armed then (some { outcome, copy := t.capture }, { t with armed := false }) else (none, t)

/-- **One poll in its order:** the inner body is polled, its data is copied, and then the hook is
called if the poll has ended the reading. -/
def pollInOrder (src : Source σ) (t : Tee σ) : Poll × Option HookCall × Tee σ :=
  let (result, inner) := src.poll t.inner
  let t := { t with inner }.copyData result
  match ending src result inner with
  | none => (result, none, t)
  | some outcome =>
    let (call, t) := t.callHook outcome
    (result, call, t)

/-- **A poll calls its hook last,** when all of its data has been copied. -/
theorem pollInOrder_eq (src : Source σ) (t : Tee σ) :
    t.pollInOrder src
      = ((t.poll src).1, (t.poll src).2.1.map fun outcome =>
          { outcome, copy := (t.poll src).2.2.capture },
          (t.poll src).2.2) := by
  unfold pollInOrder poll
  rcases src.poll t.inner with ⟨result, inner⟩
  dsimp only
  obtain ⟨_, capture, armed⟩ := t
  cases ending src result inner with
  | none => rcases result with _ | (_ | _) | _ | _ <;> rfl
  | some outcome =>
    -- a spent hook is not called, and stays spent
    cases armed <;> rcases result with _ | (_ | _) | _ | _ <;> rfl

/-- What is left to say when a tee is dropped. -/
theorem callHook_aborted (t : Tee σ) :
    (t.callHook .aborted).1 = t.drop.map fun outcome => { outcome, copy := t.capture } := by
  rw [drop, callHook]
  cases t.armed <;> rfl

end Tee

/-! ## Lives -/

/-- **Life of a tee:** the tee, what its reader has seen, and how its hook has been called. -/
structure TeeLife (σ : Type) where
  tee : Tee σ
  seen : List Poll
  calls : List HookCall

namespace TeeLife

def start (tee : Tee σ) : TeeLife σ := { tee, seen := [], calls := [] }

def poll (src : Source σ) (l : TeeLife σ) : TeeLife σ :=
  let (result, call, tee) := l.tee.pollInOrder src
  { tee, seen := l.seen ++ [result], calls := l.calls ++ call.toList }

/-- The life of a tee after some polls more. -/
def polled (src : Source σ) (l : TeeLife σ) : Nat → TeeLife σ
  | 0 => l
  | n + 1 => (polled src l n).poll src

/-- The tee is dropped. -/
def dropped (l : TeeLife σ) : TeeLife σ :=
  let (call, tee) := l.tee.callHook .aborted
  { l with tee, calls := l.calls ++ call.toList }

theorem poll_eq (src : Source σ) (l : TeeLife σ) :
    l.poll src
      = { tee := (l.tee.poll src).2.2
          seen := l.seen ++ [(l.tee.poll src).1]
          calls := l.calls ++ ((l.tee.poll src).2.1.map fun outcome =>
            { outcome, copy := (l.tee.poll src).2.2.capture }).toList } := by
  rw [poll, Tee.pollInOrder_eq]

/-- What holds at the beginning and is kept by every poll holds after any number of them. -/
theorem polled_induction {src : Source σ} {l : TeeLife σ} {motive : Nat → TeeLife σ → Prop}
    (hstart : motive 0 l)
    (hpoll : ∀ n reached, motive n reached → motive (n + 1) (reached.poll src)) (n : Nat) :
    motive n (l.polled src n) := by
  induction n with
  | zero => exact hstart
  | succ n ih => exact hpoll n _ ih

/-- **Invariant:** a tee stands where its body stands after so many polls, its reader has seen what
the body has yielded, and the copy holds the first bytes of that. -/
structure Follows (src : Source σ) (body : σ) (limit n : Nat) (l : TeeLife σ) : Prop where
  inner : l.tee.inner = src.after body n
  seen : l.seen = src.polls body n
  copy : l.tee.capture = .holding limit (readBytes (src.polls body n))

theorem Follows.poll {src : Source σ} {body : σ} {limit n : Nat} {l : TeeLife σ}
    (h : Follows src body limit n l) :
    Follows src body limit (n + 1) (l.poll src) := by
  have hresult : (src.poll l.tee.inner).1 = src.pollAt body n := by rw [h.inner, Source.pollAt]
  rw [poll_eq]
  refine ⟨?_, ?_, ?_⟩
  · dsimp only
    rw [Tee.poll_inner, h.inner, Source.after]
  · dsimp only
    rw [Tee.poll_result, hresult, h.seen, Source.polls_succ]
  · dsimp only
    rw [Tee.poll_capture, hresult, h.copy, holding_append, Source.polls_succ]

theorem follows_start (src : Source σ) (body : σ) (limit : Nat) (armed : Bool) :
    Follows src body limit 0 (start { Tee.plain body limit with armed }) where
  inner := rfl
  seen := rfl
  copy := copyOf_eq_holding limit []

/-- **Invariant of a hook:** it is unspent and has not been called as long as no poll has ended the
reading, and the first poll that does so calls it, with what has been copied by then. -/
structure Told (src : Source σ) (body : σ) (limit n : Nat) (l : TeeLife σ) : Prop where
  untold : (∀ k < n, ∀ outcome, ¬EndsAt src body k outcome) → l.tee.armed = true ∧ l.calls = []
  told : ∀ k outcome, k < n → FirstEnding src body k outcome →
    l.tee.armed = false
      ∧ l.calls = [{ outcome, copy := .holding limit (readBytes (src.polls body (k + 1))) }]

theorem Told.poll {src : Source σ} {body : σ} {limit n : Nat} {l : TeeLife σ}
    (h : Told src body limit n l) (hfollows : Follows src body limit n l) :
    Told src body limit (n + 1) (l.poll src) := by
  have hcopy := hfollows.poll.copy
  rw [poll_eq] at hcopy ⊢
  have hinner := hfollows.inner
  refine ⟨fun hnone => ?_, fun k outcome hk hfirst => ?_⟩
  · -- no poll so far has ended the reading, and neither does this one
    obtain ⟨harmed, hcalls⟩ := h.untold fun k hk => hnone k (by omega)
    have hending : Tee.ending src (src.poll l.tee.inner).1 (src.poll l.tee.inner).2 = none := by
      rw [hinner, Option.eq_none_iff_forall_ne_some]
      exact fun outcome hsome => hnone n (by omega) outcome (endsAt_iff.2 hsome)
    dsimp only
    rw [Tee.poll_armed, Tee.poll_outcome, hending, harmed, hcalls]
    exact ⟨rfl, rfl⟩
  · rcases hfirst.lt_succ_cases hk with ⟨hbefore, hfirst⟩ | ⟨rfl, hends, hnone⟩
    · -- the hook is spent
      obtain ⟨harmed, hcalls⟩ := h.told k outcome hbefore hfirst
      dsimp only
      rw [Tee.poll_armed, Tee.poll_outcome, harmed, hcalls]
      exact ⟨rfl, rfl⟩
    · -- this is the poll that ends the reading, and it finds the hook unspent
      obtain ⟨harmed, hcalls⟩ := h.untold hnone
      have hending := endsAt_iff.1 hends
      rw [← hinner] at hending
      dsimp only at hcopy ⊢
      rw [Tee.poll_armed, Tee.poll_outcome, hending, harmed, hcalls, hcopy]
      exact ⟨rfl, rfl⟩

theorem told_start (src : Source σ) (body : σ) (limit : Nat) :
    Told src body limit 0 (start (Tee.hooked body limit)) where
  untold := fun _ => ⟨rfl, rfl⟩
  told := fun k _ hk => absurd hk (Nat.not_lt_zero k)

theorem follows_polled (src : Source σ) (body : σ) (limit : Nat) (armed : Bool) (n : Nat) :
    Follows src body limit n ((start { Tee.plain body limit with armed }).polled src n) :=
  polled_induction (motive := Follows src body limit) (follows_start src body limit armed)
    (fun _ _ h => h.poll) n

theorem told_polled (src : Source σ) (body : σ) (limit n : Nat) :
    Told src body limit n ((start (Tee.hooked body limit)).polled src n) := by
  have hboth : Follows src body limit n ((start (Tee.hooked body limit)).polled src n)
      ∧ Told src body limit n ((start (Tee.hooked body limit)).polled src n) :=
    polled_induction (motive := fun n l => Follows src body limit n l ∧ Told src body limit n l)
      ⟨follows_start src body limit true, told_start src body limit⟩
      (fun _ _ h => ⟨h.1.poll, h.2.poll h.1⟩) n
  exact hboth.2

/-- Without a hook there are no calls. -/
theorem plain_polled (src : Source σ) (body : σ) (limit n : Nat) :
    ((start (Tee.plain body limit)).polled src n).tee.armed = false
      ∧ ((start (Tee.plain body limit)).polled src n).calls = [] := by
  refine polled_induction (motive := fun _ l => l.tee.armed = false ∧ l.calls = []) ⟨rfl, rfl⟩ ?_ n
  rintro n l ⟨harmed, hcalls⟩
  rw [poll_eq]
  dsimp only
  rw [Tee.poll_armed, Tee.poll_outcome, harmed, hcalls]
  exact ⟨rfl, rfl⟩

theorem calls_dropped (l : TeeLife σ) :
    l.dropped.calls
      = l.calls ++ (l.tee.drop.map fun outcome => { outcome, copy := l.tee.capture }).toList := by
  rw [← Tee.callHook_aborted]
  rfl

theorem calls_dropped_of_spent {l : TeeLife σ} (h : l.tee.armed = false) :
    l.dropped.calls = l.calls := by
  rw [calls_dropped, Tee.drop, h]
  exact List.append_nil _

theorem calls_dropped_of_armed {l : TeeLife σ} (h : l.tee.armed = true) :
    l.dropped.calls = l.calls ++ [{ outcome := .aborted, copy := l.tee.capture }] := by
  rw [calls_dropped, Tee.drop, h]
  rfl

/-- The call that the drop makes of a body whose reading no poll has ended. -/
theorem calls_of_untold {src : Source σ} {body : σ} {n : Nat} (limit : Nat)
    (h : ∀ k < n, ∀ outcome, ¬EndsAt src body k outcome) :
    ((start (Tee.hooked body limit)).polled src n).calls = []
      ∧ ((start (Tee.hooked body limit)).polled src n).dropped.calls
        = [{ outcome := .aborted, copy := .holding limit (readBytes (src.polls body n)) }] := by
  have hfollows : Follows src body limit n ((start (Tee.hooked body limit)).polled src n) :=
    follows_polled src body limit true n
  obtain ⟨harmed, hcalls⟩ := (told_polled src body limit n).untold h
  exact ⟨hcalls, by rw [calls_dropped_of_armed harmed, hcalls, hfollows.copy]; rfl⟩

/-- The call that is made in the first poll that ends the reading is the only one. -/
theorem calls_of_firstEnding {src : Source σ} {body : σ} {n k : Nat} {outcome : BodyOutcome}
    (limit : Nat) (hk : k < n) (h : FirstEnding src body k outcome) :
    ((start (Tee.hooked body limit)).polled src n).calls
        = [{ outcome, copy := .holding limit (readBytes (src.polls body (k + 1))) }]
      ∧ ((start (Tee.hooked body limit)).polled src n).dropped.calls
        = ((start (Tee.hooked body limit)).polled src n).calls := by
  obtain ⟨harmed, hcalls⟩ := (told_polled src body limit n).told k outcome hk h
  exact ⟨hcalls, calls_dropped_of_spent harmed⟩

/-- **What a tee copies, and when it calls its hook.** Whatever body is behind a tee, whatever its
limit is and however often it is polled before it is dropped: its reader sees what the body yields,
and the copy holds the first bytes of all the data, with the overflow flag set exactly if there were
more. With a hook there is exactly one call. The first poll that ends the reading makes it, and says
how; if no poll does, the drop makes it and says that the body was aborted. At the call the copy has
all the data yielded so far, that of the same poll included. -/
theorem copied_and_calledOnce (src : Source σ) (body : σ) (limit n : Nat) :
    let copied (k : Nat) := CaptureBuffer.holding limit (readBytes (src.polls body k))
    let plain := (start (Tee.plain body limit)).polled src n
    let hooked := (start (Tee.hooked body limit)).polled src n
    (plain.seen = src.polls body n ∧ plain.tee.capture = copied n ∧ plain.dropped.calls = [])
      ∧ hooked.seen = src.polls body n ∧ hooked.tee.capture = copied n
      ∧ (∃ call, hooked.dropped.calls = [call])
      ∧ (∀ k outcome, k < n → FirstEnding src body k outcome →
          hooked.calls = [{ outcome, copy := copied (k + 1) }]
            ∧ hooked.dropped.calls = hooked.calls)
      ∧ ((∀ k < n, ∀ outcome, ¬EndsAt src body k outcome) →
          hooked.calls = []
            ∧ hooked.dropped.calls = [{ outcome := .aborted, copy := copied n }]) := by
  intro copied plain hooked
  have hplain : Follows src body limit n plain := follows_polled src body limit false n
  have hhooked : Follows src body limit n hooked := follows_polled src body limit true n
  obtain ⟨hspent, hnever⟩ := plain_polled src body limit n
  refine ⟨⟨hplain.seen, hplain.copy, ?_⟩, hhooked.seen, hhooked.copy, ?_,
    fun k outcome => calls_of_firstEnding limit, calls_of_untold limit⟩
  · rw [calls_dropped_of_spent hspent, hnever]
  · rcases exists_firstEnding_or src body n with ⟨k, outcome, hk, hfirst⟩ | hnone
    · obtain ⟨hcalls, hdropped⟩ := calls_of_firstEnding limit hk hfirst
      exact ⟨_, hdropped.trans hcalls⟩
    · exact ⟨_, (calls_of_untold limit hnone).2⟩

/-- A stream that breaks and goes on: data, a failure, data again and trailers. -/
def brokenStream : Body :=
  Body.stream [.frame (.data (Bytes.ofString "ab")), .failure "reset",
    .frame (.data (Bytes.ofString "cdef")), .frame (.trailers Headers.empty)]

/-- The failure calls the hook, which finds two bytes. Three polls more fill the copy and overflow
it, and nobody is called again. -/
theorem copied_and_calledOnce_brokenStream :
    let life := (start (Tee.hooked brokenStream 3)).polled Body.source 5
    FirstEnding Body.source brokenStream 1 .failed
      ∧ life.dropped.calls
        = [{ outcome := .failed,
             copy := { limit := 3, data := Bytes.ofString "ab", truncated := false } }]
      ∧ life.tee.capture = { limit := 3, data := Bytes.ofString "abc", truncated := true }
      ∧ ((start (Tee.hooked brokenStream 3)).polled Body.source 1).dropped.calls
        = [{ outcome := .aborted,
             copy := { limit := 3, data := Bytes.ofString "ab", truncated := false } }] := by
  intro life
  have hnone : ∀ k < 1, ∀ outcome, ¬EndsAt Body.source brokenStream k outcome := by
    intro k hk outcome hends
    obtain rfl : k = 0 := by omega
    cases endsAt_iff.1 hends
  have hfirst : FirstEnding Body.source brokenStream 1 .failed := ⟨.failure "reset" rfl, hnone⟩
  obtain ⟨-, -, hcopy, -, htold, -⟩ := copied_and_calledOnce Body.source brokenStream 3 5
  obtain ⟨hcalls, hdropped⟩ := htold 1 .failed (by omega) hfirst
  obtain ⟨-, -, -, -, -, huntold⟩ := copied_and_calledOnce Body.source brokenStream 3 1
  refine ⟨hfirst, (hdropped.trans hcalls).trans ?_, hcopy.trans ?_, (huntold hnone).2.trans ?_⟩
  · decide
  · decide
  · decide

end TeeLife
end Traffic
end Gatehouse
