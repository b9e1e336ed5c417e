/-
Patterns as ways to cut a path.

A list of pattern segments matches a list of path segments if the path can be cut into consecutive
pieces, one for each pattern segment (`Cuts`). Nothing in that speaks of a search: which piece is
tried first, how long it may be, what is tried after a failure. The search decides it all the same
(`align_eq_true_iff_cuts`), the pieces at either end and those without any segment included.

Cutting is compositional (`cuts_append_iff`), which the search is not: a part of a pattern can be
replaced by any other that cuts the same paths, whatever stands before it and behind it. A run of
`**` cuts every path, however many there are in it, and so does one `**` (`cuts_deepRun`).
-/
import Gatehouse.Proofs.Routing.PathLanguage

set_option autoImplicit false

namespace Gatehouse.Routing

/-! ## Pieces of a path -/

/-- **The pieces that a segment of a pattern takes:** `**` one of any length, `{name}` any one path
segment, and a glob one path segment that it accepts. -/
def Segment.TakesPiece : Segment → List Bytes → Prop
  | .anyDepth, _ => True
  | .variable, piece => ∃ text, piece = [text]
  | .glob pattern, piece => ∃ text, piece = [text] ∧ globMatches pattern text = true

/-- **A pattern cuts a path** into consecutive pieces, one for each of its segments, in order. -/
def Cuts (segments : List Segment) (path : List Bytes) : Prop :=
  ∃ pieces : List (List Bytes), List.Forall₂ Segment.TakesPiece segments pieces
    ∧ pieces.flatten = path

theorem Segment.takesPiece_iff_of_ne {segment : Segment} (hne : segment ≠ .anyDepth)
    {piece : List Bytes} :
    segment.TakesPiece piece ↔ ∃ text, piece = [text] ∧ segment.accepts text = true := by
  match segment, hne with
  | .variable, _ => simp only [TakesPiece, Segment.accepts, and_true]
  | .glob pattern, _ => exact Iff.rfl

theorem cuts_nil_iff {path : List Bytes} : Cuts [] path ↔ path = [] := by
  constructor
  · rintro ⟨pieces, hpieces, rfl⟩
    rw [List.forall₂_nil_left_iff.1 hpieces, List.flatten_nil]
  · rintro rfl
    exact ⟨[], .nil, rfl⟩

/-- The first piece, and the rest of the path. -/
theorem cuts_cons_iff {segment : Segment} {rest : List Segment} {path : List Bytes} :
    Cuts (segment :: rest) path
      ↔ ∃ piece behind, path = piece ++ behind ∧ segment.TakesPiece piece ∧ Cuts rest behind := by
  constructor
  · rintro ⟨pieces, hpieces, rfl⟩
    obtain ⟨piece, others, hpiece, hothers, rfl⟩ := List.forall₂_cons_left_iff.1 hpieces
    exact ⟨piece, others.flatten, List.flatten_cons, hpiece, others, hothers, rfl⟩
  · rintro ⟨piece, behind, rfl, hpiece, pieces, hpieces, rfl⟩
    exact ⟨piece :: pieces, .cons hpiece hpieces, List.flatten_cons⟩

/-- **Cutting is compositional:** two patterns in a row cut what is a path of the one and then a
path of the other. -/
theorem cuts_append_iff {front back : List Segment} {path : List Bytes} :
    Cuts (front ++ back) path
      ↔ ∃ first behind, path = first ++ behind ∧ Cuts front first ∧ Cuts back behind := by
  induction front generalizing path with
  | nil =>
    rw [List.nil_append]
    constructor
    · intro h
      exact ⟨[], path, rfl, cuts_nil_iff.2 rfl, h⟩
    · rintro ⟨first, behind, rfl, hfirst, hbehind⟩
      rwa [cuts_nil_iff.1 hfirst, List.nil_append]
  | cons segment front ih =>
    rw [List.cons_append, cuts_cons_iff]
    constructor
    · rintro ⟨piece, behind, rfl, hpiece, hbehind⟩
      obtain ⟨first, last, rfl, hfirst, hlast⟩ := ih.1 hbehind
      exact ⟨piece ++ first, last, (List.append_assoc ..).symm,
        cuts_cons_iff.2 ⟨piece, first, rfl, hpiece, hfirst⟩, hlast⟩
    · rintro ⟨first, last, rfl, hfirst, hlast⟩
      obtain ⟨piece, behind, rfl, hpiece, hbehind⟩ := cuts_cons_iff.1 hfirst
      exact ⟨piece, behind ++ last, List.append_assoc .., hpiece,
        ih.2 ⟨behind, last, rfl, hbehind, hlast⟩⟩

/-! ## The search -/

/-- An alignment is a cut, segment by segment. -/
theorem aligned_iff_cuts (segments : List Segment) (path : List Bytes) :
    Aligned (fun segment text => segment.accepts text = true) segments path
      ↔ Cuts segments path := by
  induction segments generalizing path with
  | nil =>
    rw [cuts_nil_iff]
    constructor
    · intro h
      cases h
      rfl
    · rintro rfl
      exact .done
  | cons segment rest ih =>
    rw [cuts_cons_iff]
    by_cases hdeep : segment = .anyDepth
    · subst hdeep
      rw [aligned_anyDepth_iff]
      constructor
      · rintro ⟨skip, h⟩
        exact ⟨path.take skip, path.drop skip, (List.take_append_drop skip path).symm,
          trivial, (ih _).1 h⟩
      · rintro ⟨piece, behind, rfl, -, h⟩
        refine ⟨piece.length, ?_⟩
        rw [List.drop_left]
        exact (ih _).2 h
    · rw [aligned_cons_iff hdeep]
      constructor
      · rintro ⟨head, tail, rfl, haccepts, h⟩
        exact ⟨[head], tail, rfl,
          (Segment.takesPiece_iff_of_ne hdeep).2 ⟨head, rfl, haccepts⟩, (ih _).1 h⟩
      · rintro ⟨piece, behind, rfl, hpiece, h⟩
        obtain ⟨head, rfl, haccepts⟩ := (Segment.takesPiece_iff_of_ne hdeep).1 hpiece
        exact ⟨head, behind, rfl, haccepts, (ih _).2 h⟩

/-- **The search finds a cut if there is one.** -/
theorem align_eq_true_iff_cuts (segments : List Segment) (path : List Bytes) :
    align segments path = true ↔ Cuts segments path :=
  (align_eq_true_iff segments path).trans (aligned_iff_cuts segments path)

/-! ## Runs of `**` -/

/-- One `**` or more cut every path: the first takes it all, and the others nothing. -/
theorem cuts_deepRun (others : Nat) (path : List Bytes) :
    Cuts (List.replicate (others + 1) .anyDepth) path := by
  induction others generalizing path with
  | zero =>
    exact cuts_cons_iff.2 ⟨path, [], (List.append_nil path).symm, trivial, cuts_nil_iff.2 rfl⟩
  | succ others ih =>
    rw [List.replicate_succ]
    exact cuts_cons_iff.2 ⟨path, [], (List.append_nil path).symm, trivial, ih []⟩

/-- Two parts of a pattern that cut the same paths can be exchanged anywhere. -/
theorem cuts_exchange {part other : List Segment} (h : ∀ path, Cuts part path ↔ Cuts other path)
    (front back : List Segment) (path : List Bytes) :
    Cuts (front ++ part ++ back) path ↔ Cuts (front ++ other ++ back) path := by
  simp only [cuts_append_iff, h]

/-- **Alignment is exact.** The search succeeds if the path can be cut into consecutive pieces,
one for each segment of the pattern in order, each of which its segment takes, and only then. So a
run of `**` can be replaced by a single one, wherever it stands: no path is matched that was not,
and none is lost. -/
theorem align_exact (segments : List Segment) (path : List Bytes) :
    (align segments path = true
        ↔ ∃ pieces : List (List Bytes), List.Forall₂ Segment.TakesPiece segments pieces
          ∧ pieces.flatten = path)
      ∧ ∀ (front back : List Segment) (others : Nat),
        align (front ++ List.replicate (others + 1) .anyDepth ++ back) path
          = align (front ++ [.anyDepth] ++ back) path := by
  refine ⟨align_eq_true_iff_cuts segments path, fun front back others => ?_⟩
  have hsame : ∀ part, Cuts (List.replicate (others + 1) .anyDepth) part
      ↔ Cuts [.anyDepth] part := fun part =>
    iff_of_true (cuts_deepRun others part) (cuts_deepRun 0 part)
  rw [Bool.eq_iff_iff, align_eq_true_iff_cuts, align_eq_true_iff_cuts]
  exact cuts_exchange hsame front back path

end Gatehouse.Routing
