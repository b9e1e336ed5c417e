/-
Named circuit breakers.

A breaker comes into being when its name is first used, with the settings that configuration gives
that name, and from then on every use of the name reaches the same breaker. Operations on a name
also say what the operator is to be told: that a breaker was created, and every change of its state.
-/
import Gatehouse.Diagnostic
import Gatehouse.Table

set_option autoImplicit false

namespace Gatehouse.Breaker

structure BreakerConfig where
  /-- Whether a response with a server error counts as a failure. -/
  recordServerErrors : Bool
  /-- The settings of names that have none of their own. -/
  defaults : Settings
  instances : Table Settings
  deriving DecidableEq, Repr

/-- Standard settings for every name; server errors are no failures. -/
def BreakerConfig.standard : BreakerConfig :=
  { recordServerErrors := false, defaults := Settings.standard, instances := [] }

def BreakerConfig.settingsFor (config : BreakerConfig) (name : String) : Settings :=
  (List.lookup name config.instances).getD config.defaults

/-- **Registry** of the breakers created so far, in order of creation. -/
structure Registry where
  config : BreakerConfig
  breakers : Table CircuitBreaker
  deriving Repr

namespace Registry

def ofConfig (config : BreakerConfig) : Registry := { config, breakers := [] }

def find? (r : Registry) (name : String) : Option CircuitBreaker := List.lookup name r.breakers

/-- **One operation on the breaker of a name,** which is created first if need be. -/
def perform (r : Registry) (name : String) (now : Nat) (op : Operation) :
    Bool × Registry × List Diagnostic :=
  let (breaker, created) := match r.find? name with
    | some b => (b, [])
    | none =>
      (CircuitBreaker.ofSettings (r.config.settingsFor name), [Diagnostic.breakerCreated name])
  let (granted, after) := breaker.perform now op
  (granted, { r with breakers := Table.put name after r.breakers },
    created ++ announce name breaker.state after.state)

/-- Every breaker with its state, sorted by name. -/
def states (r : Registry) : List (String × State) :=
  (r.breakers.map fun b => (b.1, b.2.state)).mergeSort fun a b => decide (a.1 ≤ b.1)

end Registry
end Gatehouse.Breaker
