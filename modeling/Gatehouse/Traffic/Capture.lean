/-
Bounded copies of bodies.

A capture buffer keeps the first bytes it is given, up to its limit, and remembers whether it had to
leave any out.
-/
import Gatehouse.Text.Bytes

set_option autoImplicit false

namespace Gatehouse.Traffic

/-- **Copy** of the first bytes of a body. -/
structure CaptureBuffer where
  /-- How many bytes are kept at most. -/
  limit : Nat
  data : Bytes
  /-- Whether bytes were left out. -/
  truncated : Bool
  deriving DecidableEq, Repr

namespace CaptureBuffer

def ofLimit (limit : Nat) : CaptureBuffer := { limit, data := [], truncated := false }

/-- Copies as much of a chunk as the limit allows. -/
def append (b : CaptureBuffer) (chunk : Bytes) : CaptureBuffer :=
  let room := b.limit - b.data.length
  { b with
    data := b.data ++ chunk.take room
    truncated := b.truncated || decide (room < chunk.length) }

end CaptureBuffer
end Gatehouse.Traffic
