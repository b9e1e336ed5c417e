/-
What the gates do with a request: the policy that routing assigns to it, and the modifiers that a
route declaration may apply to a policy.
-/

set_option autoImplicit false

namespace Gatehouse.Routing

/-- **Policy** of one request. -/
structure RoutePolicy where
  /-- The breaker that guards the request. -/
  breakerName : String
  /-- Whether the request has to pass that breaker. -/
  protectedByBreaker : Bool
  /-- Whether the request needs an idempotency key and is executed once per key. -/
  idempotent : Bool
  deriving DecidableEq, Repr

/-- The breaker of every rule that names none. -/
def defaultBreakerName : String := "default"

/-- The policy of a new rule: guarded by the default breaker, idempotency off. -/
def RoutePolicy.fresh : RoutePolicy :=
  { breakerName := defaultBreakerName, protectedByBreaker := true, idempotent := false }

/-- One change that a declaration makes to a policy. -/
inductive Modifier where
  /-- Neither breaker nor idempotency. -/
  | permitAll
  | protectedByBreaker
  | unprotected
  | idempotent
  | notIdempotent
  | breakerName (name : String)
  deriving DecidableEq, Repr

def Modifier.apply : Modifier → RoutePolicy → RoutePolicy
  | .permitAll, p => { p with protectedByBreaker := false, idempotent := false }
  | .protectedByBreaker, p => { p with protectedByBreaker := true }
  | .unprotected, p => { p with protectedByBreaker := false }
  | .idempotent, p => { p with idempotent := true }
  | .notIdempotent, p => { p with idempotent := false }
  | .breakerName name, p => { p with breakerName := name }

/-- The policy after a list of changes, made in order. -/
def RoutePolicy.modify (p : RoutePolicy) (modifiers : List Modifier) : RoutePolicy :=
  modifiers.foldl (fun p m => m.apply p) p

end Gatehouse.Routing
