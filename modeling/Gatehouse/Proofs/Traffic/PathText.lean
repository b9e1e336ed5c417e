/-
Paths as texts.

Every path can be written: `$.` and the parts of the path, with a point between two of them. A part
is a field with the wildcards that follow it, and wildcards in front of the first field are a part
of their own. What is written is read as the path (`ofString?_exact`), with blanks around it or
without, and `$.` may be left out unless the path begins with a field that has a dollar sign itself.

The reader takes a text apart at the points, and takes the wildcards off the end of each part. So a
name with a point, or with a wildcard at its end, cannot be a name in a path. Any other name can:
`$` and brackets within it are its own.
-/
import Mathlib.Data.List.TakeWhile
import Gatehouse.Traffic.JsonPath

set_option autoImplicit false

namespace Gatehouse

/-! ## Blanks around a text -/

/-- Blanks around a text that has none are trimmed. -/
theorem trimBlanks_surrounded {before text after : List Char}
    (hbefore : ∀ c ∈ before, isBlank c = true) (htext : ∀ c ∈ text, isBlank c = false)
    (hafter : ∀ c ∈ after, isBlank c = true) :
    trimBlanks (before ++ text ++ after) = text := by
  have hstop : ∀ l : List Char, (∀ c ∈ l, isBlank c = false) → l.dropWhile isBlank = l := by
    intro l hl
    apply List.dropWhile_eq_self_iff.2
    intro hpos
    rw [hl _ (List.getElem_mem hpos)]
    exact Bool.false_ne_true
  have hreversed : ∀ c ∈ after.reverse, isBlank c = true := fun c hc =>
    hafter c (List.mem_reverse.1 hc)
  rw [trimBlanks, List.append_assoc, List.dropWhile_append_of_pos hbefore]
  -- A text without a character is the one that the blanks after it are taken from at once.
  by_cases hnil : text = []
  · subst hnil
    rw [List.nil_append, List.dropWhile_eq_nil_iff.2 hafter]
    rfl
  · have hhead : (text ++ after).dropWhile isBlank = text ++ after := by
      rw [List.dropWhile_append, hstop text htext, if_neg]
      simpa using hnil
    rw [hhead, List.reverse_append, List.dropWhile_append_of_pos hreversed, hstop text.reverse,
      List.reverse_reverse]
    intro c hc
    exact htext c (List.mem_reverse.1 hc)

namespace Traffic.JsonPath

/-! ## Writing a path -/

/-- **What is written for wildcards** that follow each other. -/
def wildcards (n : Nat) : List Char := (List.replicate n ['[', '*', ']']).flatten

/-- The wildcards that steps begin with, and the parts after them. -/
def partsAfter : List PathStep → Nat × List (List Char)
  | [] => (0, [])
  | .each :: rest => ((partsAfter rest).1 + 1, (partsAfter rest).2)
  | .field name :: rest =>
    (0, (name.toList ++ wildcards (partsAfter rest).1) :: (partsAfter rest).2)

/-- **The parts of a path.** -/
def parts (path : JsonPath) : List (List Char) :=
  match partsAfter path.steps with
  | (0, parts) => parts
  | (n + 1, parts) => wildcards (n + 1) :: parts

/-- **A path as it is written,** without the sign of the document root. -/
def written (path : JsonPath) : List Char := ['.'].intercalate path.parts

/-- A name that a field can have in a path. -/
structure IsName (name : String) : Prop where
  nonempty : name ≠ ""
  noPoint : '.' ∉ name.toList
  noBlank : ∀ c ∈ name.toList, isBlank c = false
  noWildcard : ¬['[', '*', ']'] <:+ name.toList

/-- **A path that can be written:** it has a step, and its fields have names that can stand in
it. -/
structure IsWritable (path : JsonPath) : Prop where
  hasStep : path.steps ≠ []
  names : ∀ name, .field name ∈ path.steps → IsName name

/-- A path that does not begin with a dollar sign of its own. -/
def IsPlain (path : JsonPath) : Prop :=
  ∀ name, path.steps.head? = some (.field name) → name.toList.head? ≠ some '$'

/-! ## Reading a part -/

theorem wildcards_succ (n : Nat) : wildcards (n + 1) = wildcards n ++ ['[', '*', ']'] := by
  rw [wildcards, List.replicate_succ', List.flatten_append]
  rfl

theorem mem_wildcards {n : Nat} {c : Char} (h : c ∈ wildcards n) : c = '[' ∨ c = '*' ∨ c = ']' := by
  obtain ⟨mark, hmark, hc⟩ := List.mem_flatten.1 h
  rw [List.eq_of_mem_replicate hmark] at hc
  simpa using hc

/-- The wildcards at the end of a part are taken off it, one after the other. -/
theorem stripWildcards_wildcards {name : List Char} (hname : ¬['[', '*', ']'] <:+ name) (n : Nat) :
    stripWildcards (name ++ wildcards n).reverse = (n, name.reverse) := by
  induction n with
  | zero =>
    rw [wildcards, List.replicate_zero, List.flatten_nil, List.append_nil]
    rw [stripWildcards]
    -- What remains to be shown is that the name does not end in a wildcard.
    intro rest hrest
    apply hname
    refine ⟨rest.reverse, ?_⟩
    rw [← List.reverse_reverse name, hrest]
    simp
  | succ n ih =>
    have hmark : (name ++ wildcards (n + 1)).reverse
        = ']' :: '*' :: '[' :: (name ++ wildcards n).reverse := by
      rw [wildcards_succ, ← List.append_assoc, List.reverse_append]
      rfl
    rw [hmark, stripWildcards, ih]

/-- A part that is wildcards only. -/
theorem stepsOf_wildcards (n : Nat) : stepsOf (wildcards n) = List.replicate n .each := by
  have hstrip := stripWildcards_wildcards (by decide : ¬['[', '*', ']'] <:+ ([] : List Char)) n
  rw [List.nil_append] at hstrip
  simp [stepsOf, hstrip]

/-- **A field with its wildcards** is read as the field, and as the wildcards. -/
theorem stepsOf_field {name : String} (h : IsName name) (n : Nat) :
    stepsOf (name.toList ++ wildcards n) = .field name :: List.replicate n .each := by
  have hstrip := stripWildcards_wildcards h.noWildcard n
  have hne : name.toList ≠ [] := fun hnil => h.nonempty (String.toList_eq_nil_iff.1 hnil)
  rw [stepsOf, hstrip]
  simp [hne]

/-- A part that is not empty has a step. -/
theorem stepsOf_eq_nil_iff (part : List Char) : stepsOf part = [] ↔ part = [] := by
  constructor
  · intro h
    have hsteps := List.append_eq_nil_iff.1 h
    have hcount : (stripWildcards part.reverse).1 = 0 := by simpa using hsteps.2
    have hrest : (stripWildcards part.reverse).2 = [] := by simpa using hsteps.1
    -- A part that no wildcard was taken off is left as it is.
    have hkept : stripWildcards part.reverse = (0, part.reverse) := by
      revert hcount
      fun_cases stripWildcards part.reverse with
      | case1 => simp
      | case2 => simp
    rw [hkept] at hrest
    simpa using hrest
  · rintro rfl
    rfl

/-! ## Reading a path -/

/-- The parts of a path are read as its steps. -/
theorem flatMap_partsAfter {steps : List PathStep} (h : ∀ name, .field name ∈ steps → IsName name) :
    List.replicate (partsAfter steps).1 .each ++ (partsAfter steps).2.flatMap stepsOf = steps := by
  induction steps with
  | nil => rfl
  | cons step rest ih =>
    have hrest := ih fun name hname => h name (List.mem_cons_of_mem _ hname)
    cases step with
    | each =>
      rw [partsAfter, List.replicate_succ, List.cons_append, hrest]
    | field name =>
      rw [partsAfter, List.flatMap_cons, stepsOf_field (h name List.mem_cons_self)]
      rw [List.replicate_zero, List.nil_append, List.cons_append, hrest]

theorem flatMap_parts {path : JsonPath} (h : path.IsWritable) :
    path.parts.flatMap stepsOf = path.steps := by
  have hsteps := flatMap_partsAfter h.names
  rw [parts]
  split
  · rename_i hparts
    rwa [hparts] at hsteps
  · rename_i hparts
    rw [hparts] at hsteps
    rw [List.flatMap_cons, stepsOf_wildcards, hsteps]

/-- A character of a part is one of a field's name, or one of a wildcard. -/
theorem mem_of_mem_partsAfter {steps : List PathStep} {part : List Char}
    (hpart : part ∈ (partsAfter steps).2) {c : Char} (hc : c ∈ part) :
    (∃ name, .field name ∈ steps ∧ c ∈ name.toList) ∨ c = '[' ∨ c = '*' ∨ c = ']' := by
  induction steps with
  | nil => simp [partsAfter] at hpart
  | cons step rest ih =>
    have hlater : part ∈ (partsAfter rest).2 →
        (∃ name, .field name ∈ step :: rest ∧ c ∈ name.toList) ∨ c = '[' ∨ c = '*' ∨ c = ']' := by
      intro hmem
      rcases ih hmem with ⟨name, hname, hcname⟩ | hmark
      · exact .inl ⟨name, List.mem_cons_of_mem _ hname, hcname⟩
      · exact .inr hmark
    cases step with
    | each => exact hlater hpart
    | field name =>
      rcases List.mem_cons.1 hpart with rfl | hmem
      · rcases List.mem_append.1 hc with hname | hmark
        · exact .inl ⟨name, List.mem_cons_self, hname⟩
        · exact .inr (mem_wildcards hmark)
      · exact hlater hmem

theorem mem_of_mem_parts {path : JsonPath} {part : List Char} (hpart : part ∈ path.parts) {c : Char}
    (hc : c ∈ part) :
    (∃ name, .field name ∈ path.steps ∧ c ∈ name.toList) ∨ c = '[' ∨ c = '*' ∨ c = ']' := by
  rw [parts] at hpart
  split at hpart
  · rename_i hparts
    exact mem_of_mem_partsAfter (by rwa [hparts]) hc
  · rename_i hparts
    rcases List.mem_cons.1 hpart with rfl | hmem
    · exact .inr (mem_wildcards hc)
    · exact mem_of_mem_partsAfter (by rwa [hparts]) hc

theorem noPoint_of_mem_parts {path : JsonPath} (h : path.IsWritable) :
    ∀ part ∈ path.parts, '.' ∉ part := by
  intro part hpart hpoint
  rcases mem_of_mem_parts hpart hpoint with ⟨name, hname, hc⟩ | hmark
  · exact (h.names name hname).noPoint hc
  · revert hmark
    decide

theorem parts_ne_nil {path : JsonPath} (h : path.IsWritable) : path.parts ≠ [] := by
  intro hnil
  apply h.hasStep
  rw [← flatMap_parts h, hnil]
  rfl

/-- **The written path** is taken apart into the parts that it was put together from. -/
theorem splitOn_written {path : JsonPath} (h : path.IsWritable) :
    path.written.splitOn '.' = path.parts :=
  List.splitOn_intercalate '.' (noPoint_of_mem_parts h) (parts_ne_nil h)

/-- A character of a written path is one of a part, or a point between two of them. -/
theorem mem_of_mem_intercalate {parts : List (List Char)} {c : Char}
    (h : c ∈ ['.'].intercalate parts) :
    c = '.' ∨ ∃ part ∈ parts, c ∈ part := by
  induction parts with
  | nil => simp at h
  | cons part rest ih =>
    have hparts : c ∈ part ∨ c = '.' ∨ c ∈ ['.'].intercalate rest := by
      cases rest with
      | nil => exact .inl (by simpa using h)
      | cons next rest => simpa [List.intercalate_cons_cons] using h
    rcases hparts with hpart | hpoint | hlater
    · exact .inr ⟨part, List.mem_cons_self, hpart⟩
    · exact .inl hpoint
    · rcases ih hlater with hpoint | ⟨later, hmem, hc⟩
      · exact .inl hpoint
      · exact .inr ⟨later, List.mem_cons_of_mem _ hmem, hc⟩

theorem noBlank_of_mem_written {path : JsonPath} (h : path.IsWritable) :
    ∀ c ∈ path.written, isBlank c = false := by
  intro c hc
  rcases mem_of_mem_intercalate hc with rfl | ⟨part, hpart, hcpart⟩
  · decide
  · rcases mem_of_mem_parts hpart hcpart with ⟨name, hname, hcname⟩ | rfl | rfl | rfl
    · exact (h.names name hname).noBlank c hcname
    · decide
    · decide
    · decide

/-- What is put together from parts begins with the first of them. -/
theorem exists_intercalate_cons (c : Char) (part : List Char) (rest : List (List Char)) :
    ∃ tail, ['.'].intercalate ((c :: part) :: rest) = c :: tail := by
  cases rest with
  | nil => exact ⟨part, by simp⟩
  | cons next rest => exact ⟨_, rfl⟩

theorem exists_written_cons {path : JsonPath} (h : path.IsWritable) (hplain : path.IsPlain) :
    ∃ c tail, path.written = c :: tail ∧ c ≠ '$' := by
  obtain ⟨steps⟩ := path
  cases steps with
  | nil => exact absurd rfl h.hasStep
  | cons step rest =>
    cases step with
    | each =>
      obtain ⟨tail, htail⟩ :=
        exists_intercalate_cons '[' ('*' :: ']' :: wildcards (partsAfter rest).1)
          (partsAfter rest).2
      exact ⟨'[', tail, htail, by decide⟩
    | field name =>
      have hname := h.names name List.mem_cons_self
      obtain ⟨c, chars, hchars⟩ := List.exists_cons_of_ne_nil fun hnil : name.toList = [] =>
        hname.nonempty (String.toList_eq_nil_iff.1 hnil)
      obtain ⟨tail, htail⟩ :=
        exists_intercalate_cons c (chars ++ wildcards (partsAfter rest).1) (partsAfter rest).2
      refine ⟨c, tail, ?_, ?_⟩
      · rw [written, parts, partsAfter, hchars]
        exact htail
      · intro hc
        apply hplain name rfl
        rw [hchars, hc]
        rfl

/-- **A path is what its steps are read as,** once the blanks and the sign of the
root are taken off. -/
theorem ofString?_of_stripRoot {path : JsonPath} (h : path.IsWritable) {s : String}
    (hs : stripRoot (trimBlanks s.toList) = path.written) : ofString? s = some path := by
  have hsteps : (path.written.splitOn '.').flatMap stepsOf = path.steps := by
    rw [splitOn_written h, flatMap_parts h]
  rw [ofString?, hs, hsteps]
  split
  · rename_i hnil
    exact absurd hnil h.hasStep
  · rfl

/-- **A text is no path** exactly if nothing stands between its points. -/
theorem ofString?_eq_none_iff (s : String) :
    ofString? s = none ↔ ∀ part ∈ (stripRoot (trimBlanks s.toList)).splitOn '.', part = [] := by
  have hsteps : ((stripRoot (trimBlanks s.toList)).splitOn '.').flatMap stepsOf = []
      ↔ ∀ part ∈ (stripRoot (trimBlanks s.toList)).splitOn '.', part = [] := by
    rw [List.flatMap_eq_nil_iff]
    exact forall₂_congr fun part _ => stepsOf_eq_nil_iff part
  rw [← hsteps, ofString?]
  split
  · rename_i hnil
    simp [hnil]
  · rename_i hne
    simp only [reduceCtorEq, false_iff]
    exact hne

/-- **Every path can be written, and is read back.** What is written may have blanks around it, and
`$.` in front of it unless the path is one that needs it. Any other text is a path too, unless
nothing stands between its points. -/
theorem ofString?_exact :
    (∀ path : JsonPath, path.IsWritable →
      ∀ before after : List Char, (∀ c ∈ before, isBlank c = true) →
        (∀ c ∈ after, isBlank c = true) →
        ofString? (String.ofList (before ++ '$' :: '.' :: path.written ++ after)) = some path
          ∧ (path.IsPlain →
              ofString? (String.ofList (before ++ path.written ++ after)) = some path))
      ∧ ∀ s, ofString? s = none
        ↔ ∀ part ∈ (stripRoot (trimBlanks s.toList)).splitOn '.', part = [] := by
  refine ⟨?_, ofString?_eq_none_iff⟩
  intro path h before after hbefore hafter
  have hwritten := noBlank_of_mem_written h
  have hrooted : ∀ c ∈ '$' :: '.' :: path.written, isBlank c = false := by
    intro c hc
    rcases List.mem_cons.1 hc with rfl | hc
    · decide
    · rcases List.mem_cons.1 hc with rfl | hc
      · decide
      · exact hwritten c hc
  constructor
  · apply ofString?_of_stripRoot h
    rw [String.toList_ofList, trimBlanks_surrounded hbefore hrooted hafter]
    rfl
  · intro hplain
    apply ofString?_of_stripRoot h
    rw [String.toList_ofList, trimBlanks_surrounded hbefore hwritten hafter]
    obtain ⟨c, tail, htail, hc⟩ := exists_written_cons h hplain
    rw [htail, stripRoot]
    · rintro rest ⟨⟩
      exact hc rfl
    · rintro rest ⟨⟩
      exact hc rfl

theorem ofString?_exact_matrix :
    IsWritable ⟨[.each, .field "$a[1]", .each, .each, .field "b"]⟩
      ∧ ofString? " $.[*].$a[1][*][*].b\t" = some
        ⟨[.each, .field "$a[1]", .each, .each, .field "b"]⟩
      ∧ ofString? "$..." = none := by
  have hnoBlank : ∀ name : String, name.toList.all (fun c => !isBlank c) = true →
      ∀ c ∈ name.toList, isBlank c = false := by
    intro name hall c hc
    simpa using List.all_eq_true.1 hall c hc
  have hnames : IsWritable ⟨[.each, .field "$a[1]", .each, .each, .field "b"]⟩ := by
    refine ⟨by decide, fun name hname => ?_⟩
    have hname : name = "$a[1]" ∨ name = "b" := by simpa using hname
    rcases hname with rfl | rfl
    · exact ⟨by decide, by decide, hnoBlank _ (by decide), by decide⟩
    · exact ⟨by decide, by decide, hnoBlank _ (by decide), by decide⟩
  have hspace : ∀ c ∈ [' '], isBlank c = true := List.all_eq_true.1 (by decide)
  have htab : ∀ c ∈ ['\t'], isBlank c = true := List.all_eq_true.1 (by decide)
  exact ⟨hnames, (ofString?_exact.1 _ hnames [' '] ['\t'] hspace htab).1,
    (ofString?_exact.2 "$...").2 (by decide)⟩

end Traffic.JsonPath
end Gatehouse
