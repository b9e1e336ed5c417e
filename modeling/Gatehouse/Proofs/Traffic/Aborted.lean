/-
What the hook is told of a body that is dropped.

A body says in two ways that it has reached its end: a poll yields the end, or the body announces
it, and a reader may stop at either. A poll of a tee minds both. The drop minds neither, it says
that the body was aborted whenever no poll has ended the reading. So all is well as long as an end
is announced by a poll, in the frame before it. A body that announces its end without being polled
for it is reported as aborted though it is complete, and an empty body does.

`tellsTruly_iff` says that this is the only way in which a hook is told wrong, and that among the
bodies of messages an empty one that is never polled is the only such body.
-/
import Gatehouse.Proofs.Traffic.TeeLife

set_option autoImplicit false

namespace Gatehouse

open Gatehouse.Http

/-! ## Bodies of messages -/

namespace Http.Body

theorem after_eq (b : Body) (n : Nat) :
    source.after b n = { b with pieces := b.pieces.drop n } := by
  induction n with
  | zero => rfl
  | succ n ih =>
    rw [Source.after, ih]
    change (poll { b with pieces := b.pieces.drop n }).2
      = { b with pieces := b.pieces.drop (n + 1) }
    rw [poll, ← List.tail_drop]
    cases hrest : b.pieces.drop n with
    | nil => rfl
    | cons piece rest => rfl

theorem pollAt_of_getElem? {b : Body} {n : Nat} {piece : Piece} (h : b.pieces[n]? = some piece) :
    source.pollAt b n = piece.poll := by
  obtain ⟨hn, hpiece⟩ := List.getElem?_eq_some_iff.1 h
  rw [Source.pollAt, after_eq]
  change (poll { b with pieces := b.pieces.drop n }).1 = piece.poll
  rw [poll, List.drop_eq_getElem_cons hn, hpiece]

theorem pollAt_of_nil {b : Body} (h : b.pieces = []) : source.pollAt b 0 = .ended := by
  change b.poll.1 = .ended
  rw [poll, h]

theorem isEnd_after_iff {b : Body} {n : Nat} :
    source.isEnd (source.after b n) = true ↔ b.announced = true ∧ b.pieces.length ≤ n := by
  rw [after_eq]
  change (b.announced && (b.pieces.drop n).isEmpty) = true ↔ _
  rw [Bool.and_eq_true, List.isEmpty_iff, List.drop_eq_nil_iff]

end Http.Body

namespace Traffic

variable {σ : Type}

/-- A body of a message that announces its end has been polled for it, unless it has been empty
from the start. -/
theorem exists_endsAt_of_announced {b : Body} {n : Nat} (hannounced : b.announced = true)
    (hn : b.pieces.length ≤ n) (hpolled : 0 < n) :
    ∃ k < n, ∃ outcome, EndsAt Body.source b k outcome := by
  by_cases hempty : b.pieces = []
  · exact ⟨0, hpolled, .completed, .ended (Body.pollAt_of_nil hempty)⟩
  · -- the last piece ends the reading, as a failure or as the frame before the announced end
    have hlength : 0 < b.pieces.length := List.length_pos_iff.2 hempty
    let last := b.pieces.length - 1
    have hlast : b.pieces[last]? = some b.pieces[last] := List.getElem?_eq_getElem (by omega)
    have hpoll := Body.pollAt_of_getElem? hlast
    refine ⟨last, by omega, ?_⟩
    cases hpiece : b.pieces[last] with
    | failure error =>
      rw [hpiece] at hpoll
      exact ⟨.failed, .failure error hpoll⟩
    | frame frame =>
      rw [hpiece] at hpoll
      exact ⟨.completed, .lastFrame frame hpoll (Body.isEnd_after_iff.2 ⟨hannounced, by omega⟩)⟩

/-! ## What the hook is told -/

/-- **A body has reached its end** by the time of some polls: it announces it, or it
has yielded it. -/
inductive AtEnd (src : Source σ) (body : σ) (n : Nat) : Prop where
  | announced (h : src.isEnd (src.after body n) = true)
  | yielded (k : Nat) (hk : k < n) (h : src.pollAt body k = .ended)

namespace TeeLife

/-- **Aborted means aborted,** for a tee with a hook that is polled some times and dropped. The hook
is told that the body was aborted only if that has not reached its end; if it has, and has not
failed, the hook is told that it was completed. -/
structure TellsTruly (src : Source σ) (body : σ) (limit n : Nat) : Prop where
  aborted : ∀ call ∈ ((start (Tee.hooked body limit)).polled src n).dropped.calls,
    call.outcome = .aborted → ¬AtEnd src body n
  completed : AtEnd src body n → (∀ k < n, ∀ error, src.pollAt body k ≠ .failure error) →
    ∀ call ∈ ((start (Tee.hooked body limit)).polled src n).dropped.calls, call.outcome = .completed

/-- A poll that ends the reading says how. -/
theorem tellsTruly_of_firstEnding {src : Source σ} {body : σ} {n k : Nat} {outcome : BodyOutcome}
    (limit : Nat) (hk : k < n) (h : FirstEnding src body k outcome) :
    TellsTruly src body limit n := by
  obtain ⟨hcalls, hdropped⟩ := calls_of_firstEnding limit hk h
  have honly : ∀ call ∈ ((start (Tee.hooked body limit)).polled src n).dropped.calls,
      call.outcome = outcome := by
    intro call hcall
    rw [hdropped, hcalls, List.mem_singleton] at hcall
    rw [hcall]
  refine ⟨fun call hcall haborted => ?_, fun _ hsound call hcall => ?_⟩
  · rw [honly call hcall] at haborted
    subst haborted
    cases h.1
  · rw [honly call hcall]
    cases h.1 with
    | failure error hfailed => exact absurd hfailed (hsound k hk error)
    | ended => rfl
    | lastFrame => rfl

/-- If no poll has ended the reading, the drop says that the body was aborted, and this is so unless
its end is announced. -/
theorem tellsTruly_of_untold {src : Source σ} {body : σ} {n : Nat} (limit : Nat)
    (h : ∀ k < n, ∀ outcome, ¬EndsAt src body k outcome) :
    TellsTruly src body limit n ↔ src.isEnd (src.after body n) = false := by
  obtain ⟨-, hcalls⟩ := calls_of_untold limit h
  have hend : AtEnd src body n ↔ src.isEnd (src.after body n) = true := by
    refine ⟨fun hreached => ?_, .announced⟩
    cases hreached with
    | announced hannounced => exact hannounced
    | yielded k hk hended => exact absurd (.ended hended) (h k hk .completed)
  rw [← Bool.not_eq_true, ← hend]
  constructor
  · intro htruly
    exact htruly.aborted _ (by rw [hcalls]; exact List.mem_singleton_self _) rfl
  · intro hopen
    exact ⟨fun _ _ _ => hopen, fun hreached => absurd hreached hopen⟩

/-- **When aborted means aborted.** A hook is told truly how a body was left exactly if some poll
has ended the reading of it or the body does not announce its end as it is dropped. Of the bodies of
messages, only an empty one that announces its end and is never polled is reported as aborted though
it is complete. -/
theorem tellsTruly_iff (src : Source σ) (body : σ) (limit n : Nat) :
    (TellsTruly src body limit n
        ↔ (∃ k < n, ∃ outcome, EndsAt src body k outcome) ∨ src.isEnd (src.after body n) = false)
      ∧ ∀ b : Body, TellsTruly Body.source b limit n
        ↔ ¬(b.announced = true ∧ b.pieces = [] ∧ n = 0) := by
  have hgeneral : ∀ {τ : Type} (source : Source τ) (left : τ), TellsTruly source left limit n
      ↔ (∃ k < n, ∃ outcome, EndsAt source left k outcome)
        ∨ source.isEnd (source.after left n) = false := by
    intro τ source left
    rcases exists_firstEnding_or source left n with ⟨k, outcome, hk, hfirst⟩ | hnone
    · exact iff_of_true (tellsTruly_of_firstEnding limit hk hfirst)
        (.inl ⟨k, hk, outcome, hfirst.1⟩)
    · rw [tellsTruly_of_untold limit hnone]
      refine ⟨.inr, fun h => h.resolve_left ?_⟩
      rintro ⟨k, hk, outcome, hends⟩
      exact hnone k hk outcome hends
  refine ⟨hgeneral src body, fun b => ?_⟩
  rw [hgeneral, ← Bool.not_eq_true, Body.isEnd_after_iff]
  constructor
  · rintro htruly ⟨hannounced, hempty, rfl⟩
    rcases htruly with ⟨k, hk, -⟩ | hopen
    · exact absurd hk (Nat.not_lt_zero k)
    · exact hopen ⟨hannounced, by rw [hempty]; exact Nat.le_refl 0⟩
  · intro hother
    by_cases hend : b.announced = true ∧ b.pieces.length ≤ n
    · obtain ⟨hannounced, hlength⟩ := hend
      have hpolled : 0 < n := by
        rw [Nat.pos_iff_ne_zero]
        rintro rfl
        exact hother ⟨hannounced, List.length_eq_zero_iff.1 (Nat.le_zero.1 hlength), rfl⟩
      exact .inl (exists_endsAt_of_announced hannounced hlength hpolled)
    · exact .inr hend

/-- **Aborted without being so:** an empty body announces its end from the start, nobody polls it,
and its hook is told that it was aborted. -/
theorem not_tellsTruly_unpolled :
    AtEnd Body.source Body.empty 0
      ∧ ((start (Tee.hooked Body.empty 4)).polled Body.source 0).dropped.calls
        = [{ outcome := .aborted, copy := CaptureBuffer.ofLimit 4 }]
      ∧ ¬TellsTruly Body.source Body.empty 4 0 := by
  have hend : AtEnd Body.source Body.empty 0 := .announced rfl
  refine ⟨hend, rfl, fun htruly => ?_⟩
  exact htruly.aborted { outcome := .aborted, copy := CaptureBuffer.ofLimit 4 }
    (List.mem_singleton_self _) rfl hend

end TeeLife
end Traffic
end Gatehouse
