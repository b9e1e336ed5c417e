/-
What somebody who reads a body has got of it so far.
-/
import Gatehouse.Http.Body

set_option autoImplicit false

namespace Gatehouse.Http

/-- **Reading** of a body so far. -/
structure Reading where
  data : Bytes
  /-- The last trailers so far. -/
  trailers : Option Headers
  error : Option String
  /-- Whether there is nothing more to read. -/
  finished : Bool
  deriving DecidableEq, Repr

namespace Reading

def start : Reading := { data := [], trailers := none, error := none, finished := false }

/-- One poll more. A failure ends the reading as the end does. -/
def add (x : Reading) : Poll → Reading
  | .pending => x
  | .frame (.data bytes) => { x with data := x.data ++ bytes }
  | .frame (.trailers headers) => { x with trailers := some headers }
  | .failure error => { x with error := some error, finished := true }
  | .ended => { x with finished := true }

end Reading
end Gatehouse.Http
