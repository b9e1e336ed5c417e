/-
Bodies that are copied while they are read.

A tee passes every poll of its inner body on unchanged and copies the data into a capture buffer. It
may carry a completion hook, which fires once: when the inner body ends or announces its end, when
it fails, or when the tee is dropped before either.
-/
import Gatehouse.Http.Body
import Gatehouse.Traffic.Capture

set_option autoImplicit false

namespace Gatehouse.Traffic

open Gatehouse.Http

/-- How the reading of a body ended. -/
inductive BodyOutcome where
  /-- It reached its end. -/
  | completed
  /-- It failed. -/
  | failed
  /-- It was dropped before its end. -/
  | aborted
  deriving DecidableEq, Repr

def BodyOutcome.label : BodyOutcome → String
  | .completed => "Completed"
  | .failed => "Failed"
  | .aborted => "Aborted"

/-- **Tee** over a body in state `σ`. -/
structure Tee (σ : Type) where
  inner : σ
  capture : CaptureBuffer
  /-- Whether the completion hook is still to fire. -/
  armed : Bool

namespace Tee

variable {σ : Type}

def plain (inner : σ) (limit : Nat) : Tee σ :=
  { inner, capture := CaptureBuffer.ofLimit limit, armed := false }

def hooked (inner : σ) (limit : Nat) : Tee σ := { plain inner limit with armed := true }

/-- How a poll ends the reading, if it does: a failure and the end do, and so does a frame after
which the inner body announces its end, because a reader may stop there. -/
def ending (src : Source σ) (poll : Poll) (after : σ) : Option BodyOutcome :=
  match poll with
  | .pending => none
  | .frame _ => if src.isEnd after then some .completed else none
  | .failure _ => some .failed
  | .ended => some .completed

/-- **One poll:** what the inner body yields, what the hook is told, and the tee afterwards. -/
def poll (src : Source σ) (t : Tee σ) : Poll × Option BodyOutcome × Tee σ :=
  let (result, inner) := src.poll t.inner
  let capture := match result with
    | .frame (.data bytes) => t.capture.append bytes
    | _ => t.capture
  match ending src result inner with
  | none => (result, none, { t with inner, capture })
  | some outcome =>
    (result, if t.armed then some outcome else none, { inner, capture, armed := false })

/-- What the hook is told when the tee is dropped. -/
def drop (t : Tee σ) : Option BodyOutcome := if t.armed then some .aborted else none

def isEnd (src : Source σ) (t : Tee σ) : Bool := src.isEnd t.inner

def sizeHint (src : Source σ) (t : Tee σ) : SizeHint := src.sizeHint t.inner

/-- A tee is a body again. -/
def source (src : Source σ) : Source (Tee σ) :=
  { poll := fun t => let (result, _, t) := t.poll src; (result, t)
    isEnd := isEnd src
    sizeHint := sizeHint src }

end Tee
end Gatehouse.Traffic
