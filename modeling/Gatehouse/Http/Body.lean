/-
Message bodies as they are read: one poll at a time.

A poll of a body yields a frame, a failure, the end, or nothing yet. `Source` is what a reader can
ask of any body: the next poll, whether the end is already announced, and what is known about the
remaining size. `Body` is the concrete body of requests and responses: a list of pieces still to
come. A body whose bytes are all at hand announces its end and its size; a stream announces neither,
and yields its next piece even after a failure.
-/
import Gatehouse.Http.Headers

set_option autoImplicit false

namespace Gatehouse.Http

/-- One frame of a body. -/
inductive Frame where
  /-- Some bytes, possibly none. -/
  | data (bytes : Bytes)
  /-- Headers after the data. -/
  | trailers (headers : Headers)
  deriving DecidableEq, Repr

/-- What one poll of a body yields. -/
inductive Poll where
  | pending
  | frame (frame : Frame)
  | failure (error : String)
  | ended
  deriving DecidableEq, Repr

def Poll.bytes : Poll → Bytes
  | .frame (.data bytes) => bytes
  | _ => []

/-- Bounds on the bytes that a body still holds. -/
structure SizeHint where
  /-- At least this many. -/
  lower : Nat
  /-- At most this many, if that is known. -/
  upper : Option Nat
  deriving DecidableEq, Repr

/-- **Body source:** what can be asked of a body in state `σ`. -/
structure Source (σ : Type) where
  /-- The next poll and the body after it. -/
  poll : σ → Poll × σ
  /-- Whether the end is announced. -/
  isEnd : σ → Bool
  /-- What is known about the size. -/
  sizeHint : σ → SizeHint

/-! ## Concrete bodies -/

/-- One piece of a body that is still to come. -/
inductive Piece where
  | frame (frame : Frame)
  | failure (error : String)
  deriving DecidableEq, Repr

/-- The poll that delivers a piece. -/
def Piece.poll : Piece → Poll
  | .frame f => .frame f
  | .failure e => .failure e

def Piece.bytes (p : Piece) : Bytes := p.poll.bytes

/-- **Body** of a message. -/
structure Body where
  /-- What is still to come. -/
  pieces : List Piece
  /-- Whether end and size are announced. -/
  announced : Bool
  deriving DecidableEq, Repr

namespace Body

def empty : Body := { pieces := [], announced := true }

/-- A body whose bytes are all at hand. -/
def ofBytes (bytes : Bytes) : Body :=
  if bytes.isEmpty then empty else { pieces := [.frame (.data bytes)], announced := true }

def ofString (s : String) : Body := ofBytes (Bytes.ofString s)

def stream (pieces : List Piece) : Body := { pieces, announced := false }

/-- The next piece, or the end. -/
def poll (b : Body) : Poll × Body :=
  match b.pieces with
  | [] => (.ended, b)
  | piece :: rest => (piece.poll, { b with pieces := rest })

def isEnd (b : Body) : Bool := b.announced && b.pieces.isEmpty

def sizeHint (b : Body) : SizeHint :=
  if b.announced then
    let n := b.pieces.foldl (fun n p => n + p.bytes.length) 0
    { lower := n, upper := some n }
  else { lower := 0, upper := none }

/-- A concrete body as a source. -/
def source : Source Body := { poll, isEnd, sizeHint }

end Body
end Gatehouse.Http
