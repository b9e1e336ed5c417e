/-
The shutdown broadcast.

Any handle can trigger a shutdown, and every subscriber is told of the triggers that come after its
subscription. Only the latest trigger is kept: a subscriber that has missed earlier ones is told
once how many it missed, and then receives the latest. All handles share one broadcast, so a trigger
through any of them is the same event.

What a subscriber still has to learn depends only on how many triggers there have been and how many
of them it has accounted for, so these two numbers are the whole state.
-/

set_option autoImplicit false

namespace Gatehouse

/-- **Shutdown broadcast.** -/
structure Shutdown where
  handles : Nat
  triggers : Nat
  /-- For each subscriber, how many triggers it has received, been told of as missed, or missed by
  subscribing later. -/
  seen : List Nat
  deriving DecidableEq, Repr

namespace Shutdown

/-- What a subscriber receives. -/
inductive Notice where
  /-- Nothing new. -/
  | quiet
  /-- The latest trigger. -/
  | signal
  /-- That this many triggers were missed. -/
  | lagged (missed : Nat)
  deriving DecidableEq, Repr

/-- One handle, no subscribers. -/
def start : Shutdown := { handles := 1, triggers := 0, seen := [] }

/-- One handle more: the number of the new handle. -/
def clone (s : Shutdown) : Nat × Shutdown := (s.handles, { s with handles := s.handles + 1 })

/-- One subscriber more: its number. Triggers before this do not reach it. -/
def subscribe (s : Shutdown) : Nat × Shutdown :=
  (s.seen.length, { s with seen := s.seen ++ [s.triggers] })

def trigger (s : Shutdown) : Shutdown := { s with triggers := s.triggers + 1 }

/-- What a subscriber that has accounted for `seen` of `triggers` receives, and what it has
accounted for then. -/
def notice (triggers seen : Nat) : Notice × Nat :=
  if triggers ≤ seen then (.quiet, seen)
  else if triggers = seen + 1 then (.signal, triggers)
  else (.lagged (triggers - 1 - seen), triggers - 1)

/-- **One receive** of a subscriber; a number that is no subscriber receives nothing. -/
def receive (s : Shutdown) (subscriber : Nat) : Notice × Shutdown :=
  match s.seen[subscriber]? with
  | none => (.quiet, s)
  | some seen =>
    let (result, seen) := notice s.triggers seen
    (result, { s with seen := s.seen.set subscriber seen })

end Shutdown
end Gatehouse
