/-
The breaker that a name leads to.

A registry makes a breaker when its name is used first, so a name that has not been used leads to a
breaker as well, a new one (`breakerOf`). Put this way, an operation on a name is that operation on
its breaker, and nothing to any other. What can change the state of a breaker has been said
(`StateStep`); of a registry it is enough here that a breaker begins or ceases to be closed at an
outcome, and at nothing else.
-/
import Gatehouse.Breaker.Registry
import Gatehouse.Proofs.Breaker.Lifecycle

set_option autoImplicit false

namespace Gatehouse.Breaker

/-- **A breaker closes or ceases to be closed** only as an outcome is recorded: it closes at a
success, and it opens at either. -/
theorem CircuitBreaker.StateStep.operation_of_closed {b after : CircuitBreaker} {x : TimedOperation}
    (h : StateStep b x after) (hchanges : ¬(b.state = .closed ↔ after.state = .closed)) :
    x.operation = .succeed ∨ x.operation = .fail ∧ after.state ≠ .closed := by
  cases h with
  | stays hstate => exact absurd (by rw [hstate]) hchanges
  | opens hoperation hbefore hafter =>
    rcases hoperation with hsucceed | hfail
    · exact .inl hsucceed
    · exact .inr ⟨hfail, by rw [hafter]; exact nofun⟩
  | probes hoperation hbefore hwaited hafter =>
    rw [hbefore, hafter] at hchanges
    exact absurd (iff_of_false nofun nofun) hchanges
  | closes hoperation => exact .inl hoperation
  | reopens hoperation hbefore hafter => exact .inr ⟨hoperation, by rw [hafter]; exact nofun⟩

namespace Registry

/-- **The breaker that a name leads to,** if only to a new one. -/
def breakerOf (r : Registry) (name : String) : CircuitBreaker :=
  (r.find? name).getD (CircuitBreaker.ofSettings (r.config.settingsFor name))

variable (r : Registry) (name : String) (now : Nat) (op : Operation)

/-- An operation on a name is that operation on its breaker, which the name leads to from then
on. -/
theorem perform_eq :
    (r.perform name now op).2.1
      = { r with breakers := Table.put name ((r.breakerOf name).perform now op).2 r.breakers } := by
  unfold perform breakerOf
  cases r.find? name with
  | none => rfl
  | some b => rfl

theorem breakerOf_perform_self :
    (r.perform name now op).2.1.breakerOf name = ((r.breakerOf name).perform now op).2 := by
  rw [perform_eq, breakerOf, find?, Table.lookup_put_self]
  rfl

theorem breakerOf_perform_of_ne {other : String} (h : name ≠ other) :
    (r.perform name now op).2.1.breakerOf other = r.breakerOf other := by
  rw [perform_eq, breakerOf, find?, Table.lookup_put_of_ne h]
  rfl

/-- Whichever breaker of a registry closes or ceases to be closed, it is the one that the operation
is on, and the operation records an outcome. -/
theorem operation_of_closed {other : String}
    (hchanges : ¬((r.breakerOf other).state = .closed
      ↔ ((r.perform name now op).2.1.breakerOf other).state = .closed)) :
    name = other
      ∧ (op = .succeed
          ∨ op = .fail ∧ ((r.perform name now op).2.1.breakerOf other).state ≠ .closed) := by
  by_cases hname : name = other
  · subst hname
    rw [breakerOf_perform_self] at hchanges ⊢
    exact ⟨rfl,
      (CircuitBreaker.stateStep (r.breakerOf name) ⟨now, op⟩).operation_of_closed hchanges⟩
  · rw [breakerOf_perform_of_ne r name now op hname] at hchanges
    exact absurd Iff.rfl hchanges

end Registry
end Gatehouse.Breaker
