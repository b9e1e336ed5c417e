/-
The language of a path pattern, and what `PathPattern.matches` decides.

The documented language is a relation between the pieces of a pattern and the segments of a path, as
they stand between the slashes (`Spells`): `**` takes any run of segments, `{name}` one segment, and
any other piece one segment that it produces as a glob. It is stated on the raw pieces, so that it
does not rest on how patterns are compiled.

The search over segments is exact (`align_eq_true_iff`), and compiling a piece keeps its meaning
(`spells_iff_aligned`). What is left is the glob inside one segment, where a star that faces the
byte `*` is taken for a literal: the language that is decided is the one of `literalFirst`. It is
never larger than the documented one, and it is the same for every path without the byte `*`.
-/
import Gatehouse.Proofs.Places
import Gatehouse.Proofs.Routing.GlobLanguage
import Mathlib

set_option autoImplicit false

namespace Gatehouse.Routing

/-! ## Alignment of compiled segments -/

/-- **Alignment** of pattern segments with path segments: `**` takes a run of any length, every
other segment takes one path segment that it accepts. -/
inductive Aligned (accepts : Segment → Bytes → Prop) : List Segment → List Bytes → Prop
  | done : Aligned accepts [] []
  | anyDepth {rest : List Segment} {path : List Bytes} (run : List Bytes) :
      Aligned accepts rest path → Aligned accepts (.anyDepth :: rest) (run ++ path)
  | one {segment : Segment} {rest : List Segment} {head : Bytes} {tail : List Bytes} :
      segment ≠ .anyDepth → accepts segment head → Aligned accepts rest tail →
      Aligned accepts (segment :: rest) (head :: tail)

theorem aligned_anyDepth_iff {accepts : Segment → Bytes → Prop} {rest : List Segment}
    {path : List Bytes} :
    Aligned accepts (.anyDepth :: rest) path ↔ ∃ skip, Aligned accepts rest (path.drop skip) := by
  constructor
  · intro h
    cases h with
    | anyDepth run h => exact ⟨run.length, by rwa [List.drop_left]⟩
    | one hne => exact absurd rfl hne
  · rintro ⟨skip, h⟩
    rw [← List.take_append_drop skip path]
    exact .anyDepth _ h

theorem aligned_cons_iff {accepts : Segment → Bytes → Prop} {segment : Segment}
    {rest : List Segment} {path : List Bytes} (hne : segment ≠ .anyDepth) :
    Aligned accepts (segment :: rest) path
      ↔ ∃ head tail, path = head :: tail ∧ accepts segment head ∧ Aligned accepts rest tail := by
  constructor
  · intro h
    cases h with
    | anyDepth => exact absurd rfl hne
    | one _ haccepts h => exact ⟨_, _, rfl, haccepts, h⟩
  · rintro ⟨head, tail, rfl, haccepts, h⟩
    exact .one hne haccepts h

/-- **The search for an alignment finds one if there is one.** -/
theorem align_eq_true_iff (segments : List Segment) (path : List Bytes) :
    align segments path = true
      ↔ Aligned (fun segment text => segment.accepts text = true) segments path := by
  induction segments, path using align.induct with
  | case1 path =>
    -- no segment is left
    rw [align, List.isEmpty_iff]
    constructor
    · rintro rfl
      exact .done
    · intro h
      cases h
      rfl
  | case2 rest path ih =>
    rw [align, aligned_anyDepth_iff, List.any_eq_true]
    constructor
    · rintro ⟨skip, -, h⟩
      exact ⟨skip, (ih skip).1 h⟩
    · rintro ⟨skip, h⟩
      -- skipping more than the whole path is no different from skipping it
      refine ⟨min skip path.length, List.mem_range.2 (by omega), (ih _).2 ?_⟩
      by_cases hle : skip ≤ path.length
      · rwa [Nat.min_eq_left hle]
      · rw [Nat.min_eq_right (by omega), List.drop_length]
        rwa [List.drop_of_length_le (by omega)] at h
  | case3 segment rest hne =>
    -- the path has come to its end; `align` only computes once the kind of the segment is known
    rw [aligned_cons_iff (fun h => hne h)]
    match segment, hne with
    | .variable, _ => simp [align]
    | .glob pattern, _ => simp [align]
  | case4 segment rest head tail hne ih =>
    rw [aligned_cons_iff (fun h => hne h)]
    have hstep : align (segment :: rest) (head :: tail)
        = (segment.accepts head && align rest tail) := by
      match segment, hne with
      | .variable, hne => rw [align]; exact hne
      | .glob pattern, hne => rw [align]; exact hne
    rw [hstep, Bool.and_eq_true, ih]
    constructor
    · rintro ⟨haccepts, h⟩
      exact ⟨head, tail, rfl, haccepts, h⟩
    · rintro ⟨head', tail', hpath, haccepts, h⟩
      obtain ⟨rfl, rfl⟩ := List.cons.inj hpath
      exact ⟨haccepts, h⟩

/-! ## The documented language -/

/-- The piece `**`. -/
def deepPiece : Bytes := [star, star]

/-- The piece `{name}`. -/
def variablePiece (name : Bytes) : Bytes := 0x7B :: name ++ [0x7D]

/-- **What the pieces of a pattern spell,** with a rule for the stars inside a piece: `**` any run
of path segments, `{name}` with a name one path segment, and every other piece one path segment
that it produces. -/
inductive Spells (rule : StarRule) : List Bytes → List Bytes → Prop
  | done : Spells rule [] []
  | deep {rest path : List Bytes} (run : List Bytes) :
      Spells rule rest path → Spells rule (deepPiece :: rest) (run ++ path)
  | named {rest tail : List Bytes} {name : Bytes} (head : Bytes) :
      name ≠ [] → Spells rule rest tail → Spells rule (variablePiece name :: rest) (head :: tail)
  | glob {piece head : Bytes} {rest tail : List Bytes} :
      piece ≠ deepPiece → (∀ name, name ≠ [] → piece ≠ variablePiece name) →
      Produces rule piece head → Spells rule rest tail → Spells rule (piece :: rest) (head :: tail)

/-- **The language of a pattern:** pattern and path are cut at every slash, and empty segments are
dropped. -/
def PatternLanguage (rule : StarRule) (pattern path : Bytes) : Prop :=
  Spells rule (segmentsOf pattern) (segmentsOf path)

theorem Spells.mono {rule rule' : StarRule} (h : ∀ run rest, rule run rest → rule' run rest)
    {pieces path : List Bytes} (hs : Spells rule pieces path) : Spells rule' pieces path := by
  induction hs with
  | done => exact .done
  | deep run _ ih => exact .deep run ih
  | named head hname _ ih => exact .named head hname ih
  | glob hdeep hname hproduces _ ih => exact .glob hdeep hname (hproduces.mono h) ih

theorem Spells.literalFirst_of_notMem {pieces path : List Bytes} (hs : Spells anyRun pieces path)
    (hpath : ∀ segment ∈ path, star ∉ segment) : Spells literalFirst pieces path := by
  induction hs with
  | done => exact .done
  | deep run _ ih => exact .deep run (ih fun s hs => hpath s (List.mem_append_right _ hs))
  | named head hname _ ih =>
    exact .named head hname (ih fun s hs => hpath s (List.mem_cons_of_mem _ hs))
  | glob hdeep hname hproduces _ ih =>
    exact .glob hdeep hname (hproduces.literalFirst_of_notMem (hpath _ List.mem_cons_self))
      (ih fun s hs => hpath s (List.mem_cons_of_mem _ hs))

/-! ## Compiling a pattern -/

/-- The path segments that one segment of a pattern takes. -/
def Segment.Takes (rule : StarRule) : Segment → Bytes → Prop
  | .anyDepth, _ => False
  | .variable, _ => True
  | .glob pattern, text => Produces rule pattern text

/-- A segment accepts what it takes when stars are literal first. -/
theorem Segment.accepts_eq_true_iff (segment : Segment) (text : Bytes) :
    segment.accepts text = true ↔ segment.Takes literalFirst text := by
  match segment with
  | .anyDepth => simp [Segment.accepts, Segment.Takes]
  | .variable => simp [Segment.accepts, Segment.Takes]
  | .glob pattern => exact globMatches_eq_true_iff pattern text

/-- The test for braces around a name. -/
theorem isNamed_iff (piece : Bytes) :
    (2 < piece.length && piece.head? == some 0x7B && piece.getLast? == some 0x7D) = true
      ↔ ∃ name, name ≠ [] ∧ piece = variablePiece name := by
  simp only [Bool.and_eq_true, decide_eq_true_eq, beq_iff_eq, variablePiece]
  constructor
  · rintro ⟨⟨hlength, hhead⟩, hlast⟩
    -- the three tests leave a brace, a middle and a brace; the length says that the middle
    -- is not empty
    obtain ⟨front, rfl⟩ := List.getLast?_eq_some_iff.1 hlast
    cases front with
    | nil => simp at hlength
    | cons first name =>
      obtain rfl : first = 0x7B := by simpa using hhead
      refine ⟨name, fun hname => ?_, rfl⟩
      simp [hname] at hlength
  · rintro ⟨name, hname, rfl⟩
    have hpos : 0 < name.length := List.length_pos_iff.2 hname
    refine ⟨⟨?_, rfl⟩, ?_⟩
    · simp only [List.length_append, List.length_cons, List.length_nil]
      omega
    · rw [List.getLast?_append]
      rfl

theorem Segment.ofBytes_deepPiece : Segment.ofBytes deepPiece = .anyDepth := rfl

theorem variablePiece_ne_deepPiece (name : Bytes) : variablePiece name ≠ deepPiece := by
  intro h
  exact absurd (List.cons.inj h).1 (by decide)

theorem Segment.ofBytes_of_ne {piece : Bytes} (hdeep : piece ≠ deepPiece) :
    Segment.ofBytes piece
      = if 2 < piece.length && piece.head? == some 0x7B && piece.getLast? == some 0x7D then
        .variable
        else .glob piece := by
  have hbeq : (piece == [0x2A, 0x2A]) = false := beq_eq_false_iff_ne.2 hdeep
  rw [Segment.ofBytes, hbeq]
  rfl

theorem Segment.ofBytes_variablePiece {name : Bytes} (hname : name ≠ []) :
    Segment.ofBytes (variablePiece name) = .variable := by
  rw [Segment.ofBytes_of_ne (variablePiece_ne_deepPiece name),
    if_pos ((isNamed_iff _).2 ⟨name, hname, rfl⟩)]

theorem Segment.ofBytes_glob {piece : Bytes} (hdeep : piece ≠ deepPiece)
    (hnamed : ∀ name, name ≠ [] → piece ≠ variablePiece name) :
    Segment.ofBytes piece = .glob piece := by
  rw [Segment.ofBytes_of_ne hdeep, if_neg]
  rw [isNamed_iff]
  rintro ⟨name, hname, hpiece⟩
  exact hnamed name hname hpiece

/-- **Compiling keeps the meaning:** pieces spell a path when the compiled segments can be
aligned with it. -/
theorem spells_iff_aligned (rule : StarRule) (pieces path : List Bytes) :
    Spells rule pieces path
      ↔ Aligned (fun segment text => segment.Takes rule text)
        (pieces.map Segment.ofBytes) path := by
  constructor
  · intro h
    induction h with
    | done => exact .done
    | deep run _ ih => exact .anyDepth run ih
    | named head hname _ ih =>
      rw [List.map_cons, Segment.ofBytes_variablePiece hname]
      exact .one nofun trivial ih
    | glob hdeep hnamed hproduces _ ih =>
      rw [List.map_cons, Segment.ofBytes_glob hdeep hnamed]
      exact .one nofun hproduces ih
  · -- the other way the pieces decide the case: the compiled segments do not show their names
    induction pieces generalizing path with
    | nil =>
      intro h
      cases h
      exact .done
    | cons piece rest ih =>
      rw [List.map_cons]
      by_cases hdeep : piece = deepPiece
      · subst hdeep
        rw [Segment.ofBytes_deepPiece, aligned_anyDepth_iff]
        rintro ⟨skip, h⟩
        rw [← List.take_append_drop skip path]
        exact .deep _ (ih _ h)
      by_cases hnamed : ∃ name, name ≠ [] ∧ piece = variablePiece name
      · obtain ⟨name, hname, rfl⟩ := hnamed
        rw [Segment.ofBytes_variablePiece hname, aligned_cons_iff (fun h => Segment.noConfusion h)]
        rintro ⟨head, tail, rfl, -, h⟩
        exact .named head hname (ih _ h)
      · have hglob : ∀ name, name ≠ [] → piece ≠ variablePiece name := fun name hname hpiece =>
          hnamed ⟨name, hname, hpiece⟩
        rw [Segment.ofBytes_glob hdeep hglob, aligned_cons_iff (fun h => Segment.noConfusion h)]
        rintro ⟨head, tail, rfl, hproduces, h⟩
        exact .glob hdeep hglob hproduces (ih _ h)

/-! ## What is matched -/

/-- **A pattern matches the language in which stars are literal first.** -/
theorem PathPattern.matches_eq_true_iff (pattern path : String) :
    (PathPattern.ofString pattern).matches path = true
      ↔ PatternLanguage literalFirst (Bytes.ofString pattern) (Bytes.ofString path) := by
  rw [PathPattern.matches, PathPattern.matchesBytes, align_eq_true_iff, PatternLanguage,
    spells_iff_aligned]
  simp only [Segment.accepts_eq_true_iff, PathPattern.ofString]

theorem notMem_of_mem_segmentsOf {path segment : Bytes} {b : UInt8} (hb : b ∉ path)
    (hmem : segment ∈ segmentsOf path) : b ∉ segment :=
  fun h => hb (mem_of_mem_splitOn (List.mem_filter.1 hmem).1 h).1

/-- What is matched is always in the documented language. -/
theorem PatternLanguage.anyRun_of_literalFirst {pattern path : Bytes}
    (h : PatternLanguage literalFirst pattern path) : PatternLanguage anyRun pattern path :=
  Spells.mono (fun _ _ _ => trivial) h

theorem PatternLanguage.literalFirst_of_notMem {pattern path : Bytes}
    (h : PatternLanguage anyRun pattern path) (hpath : star ∉ path) :
    PatternLanguage literalFirst pattern path :=
  Spells.literalFirst_of_notMem h fun _ hmem => notMem_of_mem_segmentsOf hpath hmem

/-- **When matching decides the documented language.** A pattern matches a path exactly if they can
be aligned with every star that faces the byte `*` standing for that byte, so only if the path is in
the language. The converse holds for exactly those paths that, if they are in the language at all,
can be aligned in this way; among them are all paths without the byte `*`. -/
theorem PathPattern.matches_iff_documented_iff (pattern path : String) :
    ((PathPattern.ofString pattern).matches path = true
        ↔ PatternLanguage literalFirst (Bytes.ofString pattern) (Bytes.ofString path))
      ∧ ((PathPattern.ofString pattern).matches path = true →
        PatternLanguage anyRun (Bytes.ofString pattern) (Bytes.ofString path))
      ∧ (((PathPattern.ofString pattern).matches path = true
            ↔ PatternLanguage anyRun (Bytes.ofString pattern) (Bytes.ofString path))
          ↔ (PatternLanguage anyRun (Bytes.ofString pattern) (Bytes.ofString path) →
              PatternLanguage literalFirst (Bytes.ofString pattern) (Bytes.ofString path)))
      ∧ (star ∉ Bytes.ofString path →
          ((PathPattern.ofString pattern).matches path = true
            ↔ PatternLanguage anyRun (Bytes.ofString pattern) (Bytes.ofString path))) := by
  rw [matches_eq_true_iff]
  refine ⟨Iff.rfl, PatternLanguage.anyRun_of_literalFirst, ?_, fun hpath => ?_⟩
  · -- one half of the equivalence always holds, so it is the other half that decides
    exact ⟨fun h => h.2, fun h => ⟨PatternLanguage.anyRun_of_literalFirst, h⟩⟩
  · exact ⟨PatternLanguage.anyRun_of_literalFirst, fun h => h.literalFirst_of_notMem hpath⟩

/-- The star of `/*` may stand for `*a`, but it faces a `*` there and is not given the rest. -/
theorem PathPattern.not_matches_star_before_byte :
    ¬((PathPattern.ofString "/*").matches "/*a" = true
      ↔ PatternLanguage anyRun (Bytes.ofString "/*") (Bytes.ofString "/*a")) := by
  have hpattern : segmentsOf (Bytes.ofString "/*") = [[star]] := by decide
  have hpath : segmentsOf (Bytes.ofString "/*a") = [[star, 0x61]] := by decide
  have hin : PatternLanguage anyRun (Bytes.ofString "/*") (Bytes.ofString "/*a") := by
    rw [PatternLanguage, hpattern, hpath]
    refine .glob (by decide) (fun name hname h => ?_) (.run [star, 0x61] trivial .done) .done
    exact absurd (List.cons.inj h).1 (by decide)
  have hout : (PathPattern.ofString "/*").matches "/*a" = false := by
    cbv
  rw [hout]
  exact fun h => absurd (h.2 hin) (by decide)

end Gatehouse.Routing
