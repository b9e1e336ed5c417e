/-
The sliding window of a breaker: the most recent outcomes, oldest first, and how many of them are
failures.

The outcomes are held as a queue of two lists, so that adding at one end and dropping at the other
both take constant time over a run. `toList` is the only view of it that matters.
-/

set_option autoImplicit false

namespace Gatehouse.Breaker

/-- **Sliding window of outcomes;** `true` is a failure. -/
structure Window where
  /-- The oldest outcomes, oldest first. -/
  front : List Bool
  /-- The newest outcomes, newest first. -/
  back : List Bool
  size : Nat
  failures : Nat
  deriving Repr

namespace Window

def empty : Window := { front := [], back := [], size := 0, failures := 0 }

def toList (w : Window) : List Bool := w.front ++ w.back.reverse

/-- One outcome more, at the new end. -/
def push (w : Window) (failed : Bool) : Window :=
  { w with
    back := failed :: w.back
    size := w.size + 1
    failures := if failed then w.failures + 1 else w.failures }

/-- Drops an outcome that was counted. -/
def forget (w : Window) (failed : Bool) (front back : List Bool) : Window :=
  { front, back, size := w.size - 1, failures := if failed then w.failures - 1 else w.failures }

/-- The window without its oldest outcome. -/
def dropOldest (w : Window) : Window :=
  match w.front with
  | failed :: front => w.forget failed front w.back
  | [] =>
    match w.back.reverse with
    | failed :: front => w.forget failed front []
    | [] => w

/-- One outcome more in a window that holds at most `limit`. -/
def record (w : Window) (limit : Nat) (failed : Bool) : Window :=
  let w := w.push failed
  if limit < w.size then w.dropOldest else w

end Window
end Gatehouse.Breaker
