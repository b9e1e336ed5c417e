/-
Ant-style path patterns.

A pattern and a path are cut at every `/` and empty segments are dropped, so leading, trailing and
doubled slashes never matter. A whole segment `**` spans any number of path segments, a whole
segment `{name}` exactly one, and every other segment is a glob over the bytes of one path segment:
`?` is one byte, `*` any run of bytes.

`PathPattern.matches` is the procedure that routes requests. It looks for an alignment of the two
segment lists (`align`), and inside a segment it runs the usual one-pass glob search that remembers
the last star only (`globFrom`). That search tries a pattern byte as a literal before it tries it as
a star, so a path segment that itself holds the byte `*` can use up a star as a literal.
-/
import Gatehouse.Text.Bytes

set_option autoImplicit false

namespace Gatehouse.Routing

/-! ## Segments -/

/-- One segment of a pattern. -/
inductive Segment where
  /-- `**`: any number of whole path segments, none included. -/
  | anyDepth
  /-- `{name}`: exactly one path segment, whatever it holds. -/
  | variable
  /-- Anything else: literal bytes, `?` and `*` over one path segment. -/
  | glob (pattern : Bytes)
  deriving DecidableEq, Repr

def slash : UInt8 := 0x2F

/-- The non-empty pieces between slashes, in order. -/
def segmentsOf (path : Bytes) : List Bytes := (path.splitOn slash).filter fun s => !s.isEmpty

/-- Which kind of segment a piece of a pattern is. Braces make a variable only around a non-empty
name and only when they enclose the whole segment. -/
def Segment.ofBytes (piece : Bytes) : Segment :=
  if piece == [0x2A, 0x2A] then .anyDepth
  else if 2 < piece.length && piece.head? == some 0x7B && piece.getLast? == some 0x7D then .variable
  else .glob piece

/-! ## Globs -/

/-- The byte `*`. -/
def star : UInt8 := 0x2A

/-- The byte `?`. -/
def anyByte : UInt8 := 0x3F

/-- The last star seen by a glob search: the pattern after it, and the text it has been given so far
(oldest byte first). A search that fails later gives it one byte more. -/
structure LastStar where
  /-- The pattern that follows the star. -/
  after : Bytes
  /-- The text read since the star. -/
  given : Bytes
  deriving Repr

/-- How much text a search can still move over before it is stuck for good. -/
def LastStar.slack (last : Option LastStar) (text : Bytes) : Nat :=
  match last with
  | none => text.length + 1
  | some l => l.given.length + text.length

/-- **Glob search.** Reads the text from left to right; a byte is compared as a literal (or `?`)
first, then a star is entered, and when neither fits the search goes back to the last star and lets
it take one byte more. -/
def globFrom (pattern text : Bytes) (last : Option LastStar) : Bool :=
  match text with
  | [] => pattern.all (· == star)
  | c :: rest =>
    match pattern with
    | p :: ps =>
      if p == anyByte || p == c then
        globFrom ps rest (last.map fun l => { l with given := l.given ++ [c] })
      else if p == star then
        globFrom ps (c :: rest) (some { after := ps, given := [] })
      else
        match last with
        | none => false
        | some l =>
          globFrom l.after ((l.given ++ c :: rest).drop 1) (some { after := l.after, given := [] })
    | [] =>
      match last with
      | none => false
      | some l =>
        globFrom l.after ((l.given ++ c :: rest).drop 1) (some { after := l.after, given := [] })
termination_by (LastStar.slack last text, pattern.length + text.length)
decreasing_by
  · rw [Prod.lex_def]
    cases last with
    | none => exact Or.inl (Nat.lt_succ_self _)
    | some l =>
      refine Or.inr ⟨?_, ?_⟩
      · simp only [LastStar.slack, Option.map_some, List.length_append, List.length_cons,
          List.length_nil]
        omega
      · simp only [List.length_cons]
        omega
  · cases last with
    | none => simp [LastStar.slack, Prod.lex_def]
    | some l => cases hl : l.given <;> simp [LastStar.slack, Prod.lex_def, hl]
  · simp [LastStar.slack, Prod.lex_def]
  · simp [LastStar.slack, Prod.lex_def]

/-- Whether a glob accepts a whole path segment. -/
def globMatches (pattern text : Bytes) : Bool := globFrom pattern text none

/-! ## Patterns -/

/-- Whether a segment other than `**` accepts one path segment. -/
def Segment.accepts : Segment → Bytes → Bool
  | .anyDepth, _ => false
  | .variable, _ => true
  | .glob pattern, text => globMatches pattern text

/-- **Alignment.** Each `**` takes a run of path segments, every other segment exactly one, and
nothing is left over. -/
def align : List Segment → List Bytes → Bool
  | [], path => path.isEmpty
  | .anyDepth :: rest, path =>
    (List.range (path.length + 1)).any fun skip => align rest (path.drop skip)
  | _ :: _, [] => false
  | segment :: rest, head :: tail => segment.accepts head && align rest tail

/-- **Path pattern:** the text as written and its segments. -/
structure PathPattern where
  text : String
  segments : List Segment
  deriving DecidableEq, Repr

/-- Compiles a pattern. Every text is a pattern. -/
def PathPattern.ofString (text : String) : PathPattern :=
  { text, segments := (segmentsOf (Bytes.ofString text)).map Segment.ofBytes }

/-- Whether a path, given as bytes, matches. -/
def PathPattern.matchesBytes (pattern : PathPattern) (path : Bytes) : Bool :=
  align pattern.segments (segmentsOf path)

/-- Whether a path matches. -/
def PathPattern.matches (pattern : PathPattern) (path : String) : Bool :=
  pattern.matchesBytes (Bytes.ofString path)

end Gatehouse.Routing
