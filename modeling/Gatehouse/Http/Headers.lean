/-
Header names and header maps.

A header name is a token, kept in lower case, so names that differ in case are one name. A
header map lists each name once, in the order in which the names first came, together with all
its values in their own order; flattening it (`toList`) therefore groups repeated names at
their first position.
-/
import Gatehouse.Http.Method

set_option autoImplicit false

namespace Gatehouse.Http

/-- **Header name,** in lower case. -/
structure HeaderName where
  /-- The lower-case token. -/
  text : String
  deriving DecidableEq, Repr

def maxHeaderNameLength : Nat := 65535

/-- A text as a header name: a non-empty token that is not too long, in any case. -/
def HeaderName.ofString? (s : String) : Option HeaderName :=
  if s.toList.isEmpty || !s.toList.all isTokenChar || maxHeaderNameLength < s.utf8ByteSize then none
  else some ⟨String.ofList (s.toList.map Char.toLower)⟩

/-- Names in order of first insertion, each with its values in order. -/
@[ext]
structure HeaderGroups where
  list : List (HeaderName × List Bytes)
  /-- No name stands twice. -/
  distinct : (list.map (·.1)).Nodup
  /-- No name stands without a value. -/
  valued : ∀ g ∈ list, g.2 ≠ []
  deriving DecidableEq, Repr

/-- The groups that pass a test. -/
def HeaderGroups.filter (p : HeaderName × List Bytes → Bool) (x : HeaderGroups) : HeaderGroups :=
  { list := x.list.filter p
    distinct := x.distinct.sublist (List.filter_sublist.map _)
    valued := fun g hg => x.valued g (List.mem_filter.1 hg).1 }

/-- **Header map:** each name once, with its values. -/
@[ext]
structure Headers where
  groups : HeaderGroups
  deriving DecidableEq, Repr

namespace Headers

def empty : Headers := ⟨{ list := [], distinct := List.nodup_nil, valued := nofun }⟩

/-- Adds a value at the end of a name's values, or a new name at the end. -/
def appendGroup (name : HeaderName) (value : Bytes) :
    List (HeaderName × List Bytes) → List (HeaderName × List Bytes)
  | [] => [(name, [value])]
  | (n, values) :: rest =>
    if n = name then (n, values ++ [value]) :: rest else (n, values) :: appendGroup name value rest

/-- A name that is there already gets one more value. -/
theorem appendGroup_names_of_mem {name : HeaderName} (value : Bytes)
    {groups : List (HeaderName × List Bytes)} (h : name ∈ groups.map (·.1)) :
    (appendGroup name value groups).map (·.1) = groups.map (·.1) := by
  induction groups with
  | nil => exact absurd h List.not_mem_nil
  | cons g rest ih =>
    obtain ⟨n, values⟩ := g
    by_cases hn : n = name
    · simp [appendGroup, hn]
    · have hrest : name ∈ rest.map (·.1) := by
        rcases List.mem_cons.1 h with heq | hmem
        · exact absurd heq.symm hn
        · exact hmem
      simp [appendGroup, hn, ih hrest]

/-- A new name comes last. -/
theorem appendGroup_of_not_mem {name : HeaderName} (value : Bytes)
    {groups : List (HeaderName × List Bytes)} (h : name ∉ groups.map (·.1)) :
    appendGroup name value groups = groups ++ [(name, [value])] := by
  induction groups with
  | nil => rfl
  | cons g rest ih =>
    obtain ⟨n, values⟩ := g
    simp only [List.map_cons, List.mem_cons, not_or] at h
    simp [appendGroup, Ne.symm h.1, ih h.2]

theorem appendGroup_distinct (name : HeaderName) (value : Bytes)
    {groups : List (HeaderName × List Bytes)} (h : (groups.map (·.1)).Nodup) :
    ((appendGroup name value groups).map (·.1)).Nodup := by
  by_cases hmem : name ∈ groups.map (·.1)
  · rwa [appendGroup_names_of_mem value hmem]
  · rw [appendGroup_of_not_mem value hmem, List.map_append, List.nodup_append]
    refine ⟨h, by simp, fun a ha b hb heq => hmem ?_⟩
    have hname : b = name := List.mem_singleton.1 hb
    rw [heq, hname] at ha
    exact ha

theorem appendGroup_valued (name : HeaderName) (value : Bytes)
    {groups : List (HeaderName × List Bytes)} (h : ∀ g ∈ groups, g.2 ≠ []) :
    ∀ g ∈ appendGroup name value groups, g.2 ≠ [] := by
  induction groups with
  | nil => simp [appendGroup]
  | cons g rest ih =>
    obtain ⟨n, values⟩ := g
    have hrest := ih fun g hg => h g (List.mem_cons_of_mem _ hg)
    by_cases hn : n = name
    · simp only [appendGroup, hn, if_true, List.mem_cons]
      rintro g (rfl | hg)
      · simp
      · exact h g (List.mem_cons_of_mem _ hg)
    · simp only [appendGroup, hn, if_false, List.mem_cons]
      rintro g (rfl | hg)
      · exact h _ List.mem_cons_self
      · exact hrest g hg

/-- Adds one value for a name, after those it has. -/
def append (h : Headers) (name : HeaderName) (value : Bytes) : Headers :=
  ⟨{ list := appendGroup name value h.groups.list
     distinct := appendGroup_distinct name value h.groups.distinct
     valued := appendGroup_valued name value h.groups.valued }⟩

/-- The header map that a list of name/value pairs builds, in order. -/
def ofList (pairs : List (HeaderName × Bytes)) : Headers :=
  pairs.foldl (fun h p => h.append p.1 p.2) empty

/-- All pairs: names in order of first insertion, each with all its values. -/
def toList (h : Headers) : List (HeaderName × Bytes) :=
  h.groups.list.flatMap fun g => g.2.map fun v => (g.1, v)

/-- All values of a name, in order. -/
def values (h : Headers) (name : HeaderName) : List Bytes :=
  ((h.groups.list.find? fun g => g.1 = name).map (·.2)).getD []

def get? (h : Headers) (name : HeaderName) : Option Bytes := (h.values name).head?

/-- Gives a name one value only, at its place or at the end. -/
def setGroup (name : HeaderName) (value : Bytes) :
    List (HeaderName × List Bytes) → List (HeaderName × List Bytes)
  | [] => [(name, [value])]
  | (n, values) :: rest =>
    if n = name then (n, [value]) :: rest else (n, values) :: setGroup name value rest

/-- Setting a value names what adding it would name. -/
theorem setGroup_names (name : HeaderName) (value : Bytes)
    (groups : List (HeaderName × List Bytes)) :
    (setGroup name value groups).map (·.1) = (appendGroup name value groups).map (·.1) := by
  induction groups with
  | nil => rfl
  | cons g rest ih =>
    obtain ⟨n, values⟩ := g
    by_cases hn : n = name
    · simp [setGroup, appendGroup, hn]
    · simp [setGroup, appendGroup, hn, ih]

theorem setGroup_valued (name : HeaderName) (value : Bytes)
    {groups : List (HeaderName × List Bytes)} (h : ∀ g ∈ groups, g.2 ≠ []) :
    ∀ g ∈ setGroup name value groups, g.2 ≠ [] := by
  induction groups with
  | nil => simp [setGroup]
  | cons g rest ih =>
    obtain ⟨n, values⟩ := g
    have hrest := ih fun g hg => h g (List.mem_cons_of_mem _ hg)
    by_cases hn : n = name
    · simp only [setGroup, hn, if_true, List.mem_cons]
      rintro g (rfl | hg)
      · simp
      · exact h g (List.mem_cons_of_mem _ hg)
    · simp only [setGroup, hn, if_false, List.mem_cons]
      rintro g (rfl | hg)
      · exact h _ List.mem_cons_self
      · exact hrest g hg

/-- Makes one value the only value of a name; a name already there keeps its position. -/
def set (h : Headers) (name : HeaderName) (value : Bytes) : Headers :=
  ⟨{ list := setGroup name value h.groups.list
     distinct := by
       rw [setGroup_names]
       exact appendGroup_distinct name value h.groups.distinct
     valued := setGroup_valued name value h.groups.valued }⟩

/-- All pairs as text, for a traffic record: a value that is not UTF-8 is shown with replacement
characters. -/
def toPairs (h : Headers) : List (String × String) :=
  h.toList.map fun p => (p.1.text, Bytes.lossy p.2)

/-! ## Taking a map apart and building it again -/

/-- A value for the last name joins its values. -/
theorem appendGroup_last {name : HeaderName} (value : Bytes)
    {groups : List (HeaderName × List Bytes)} (h : name ∉ groups.map (·.1)) (values : List Bytes) :
    appendGroup name value (groups ++ [(name, values)])
      = groups ++ [(name, values ++ [value])] := by
  induction groups with
  | nil => simp [appendGroup]
  | cons g rest ih =>
    obtain ⟨n, old⟩ := g
    simp only [List.map_cons, List.mem_cons, not_or] at h
    simp [appendGroup, Ne.symm h.1, ih h.2]

/-- So do several, one after the other. -/
theorem foldl_append_last {name : HeaderName} (more : List Bytes) (h : Headers)
    {groups : List (HeaderName × List Bytes)} (hname : name ∉ groups.map (·.1))
    {values : List Bytes} (hgroups : h.groups.list = groups ++ [(name, values)]) :
    ((more.map fun v => (name, v)).foldl (fun h p => h.append p.1 p.2) h).groups.list
      = groups ++ [(name, values ++ more)] := by
  induction more generalizing h values with
  | nil => simpa using hgroups
  | cons value more ih =>
    have hnext : (h.append name value).groups.list = groups ++ [(name, values ++ [value])] :=
      (congrArg (appendGroup name value) hgroups).trans (appendGroup_last value hname values)
    rw [List.map_cons, List.foldl_cons, ih (h.append name value) hnext]
    simp

/-- Groups of new names are built up behind those that are there. -/
theorem foldl_append_groups (rest : List (HeaderName × List Bytes)) (h : Headers)
    (hdistinct : ((h.groups.list ++ rest).map (·.1)).Nodup) (hvalued : ∀ g ∈ rest, g.2 ≠ []) :
    ((rest.flatMap fun g => g.2.map fun v => (g.1, v)).foldl (fun h p => h.append p.1 p.2)
      h).groups.list
      = h.groups.list ++ rest := by
  induction rest generalizing h with
  | nil => simp
  | cons g rest ih =>
    obtain ⟨name, values⟩ := g
    cases values with
    | nil => exact absurd rfl (hvalued (name, []) List.mem_cons_self)
    | cons value more =>
      have hnew : name ∉ h.groups.list.map (·.1) := by
        rw [List.map_append, List.nodup_append] at hdistinct
        exact fun hmem => hdistinct.2.2 name hmem name List.mem_cons_self rfl
      have hfirst : (h.append name value).groups.list = h.groups.list ++ [(name, [value])] :=
        appendGroup_of_not_mem value hnew
      have hall := foldl_append_last more (h.append name value) hnew hfirst
      rw [List.flatMap_cons, List.foldl_append, List.map_cons, List.foldl_cons]
      rw [ih _ (by rw [hall]; simpa using hdistinct) fun g hg =>
        hvalued g (List.mem_cons_of_mem _ hg)]
      rw [hall]
      simp

/-- **A header map is built again from its pairs.** -/
theorem ofList_toList (h : Headers) : ofList h.toList = h := by
  have hgroups : (ofList h.toList).groups.list = h.groups.list :=
    foldl_append_groups h.groups.list empty (by simpa [empty] using h.groups.distinct)
      h.groups.valued
  exact Headers.ext (HeaderGroups.ext hgroups)

end Headers
end Gatehouse.Http
