/-
Filters on requests and the methods that they are for.

A filter lists methods, and a filter that lists none is for every method. What is no method is left
out when a filter is made, so a filter that lists nothing else is made into one for every method: it
selects requests that it does not name. It is the only kind that does (`honoursMethods_iff`), and a
recorder without such filters decides as its settings say.

A filter is seen to select something at all by the path that is the text of its
pattern (`matches_text`).
-/
import Gatehouse.Proofs.Routing.Exemptions
import Gatehouse.Traffic.Recorder

set_option autoImplicit false

namespace Gatehouse

open Gatehouse.Http Gatehouse.Routing

namespace Routing

/-! ## A pattern matches its own text -/

theorem globFrom_self (text : Bytes) : globFrom text text none = true := by
  induction text with
  | nil => rw [globFrom]; rfl
  | cons c rest ih =>
    rw [globFrom]
    simpa using ih

theorem aligned_self (pieces : List Bytes) :
    Aligned (fun segment text => segment.accepts text = true)
      (pieces.map Segment.ofBytes) pieces := by
  induction pieces with
  | nil => exact .done
  | cons piece rest ih =>
    rw [List.map_cons]
    match hkind : Segment.ofBytes piece with
    | .anyDepth => exact .anyDepth [piece] ih
    | .variable => exact .one nofun rfl ih
    | .glob pattern =>
      have hpattern : pattern = piece := by
        unfold Segment.ofBytes at hkind
        split at hkind
        · cases hkind
        · split at hkind
          · cases hkind
          · exact (Segment.glob.inj hkind).symm
      refine .one nofun ?_ ih
      rw [hpattern]
      exact globFrom_self piece

theorem PathPattern.matches_text (text : String) :
    (PathPattern.ofString text).matches text = true := by
  rw [PathPattern.matches, PathPattern.matchesBytes, align_eq_true_iff]
  exact aligned_self _

end Routing

namespace Traffic

/-! ## What a filter is for -/

namespace PathFilter

/-- A filter is for a method: it lists none, or this one after its ASCII letters are raised. -/
def IsFor (f : PathFilter) (method : Method) : Prop :=
  f.methods = [] ∨ ∃ name ∈ f.methods, String.ofList (name.toList.map Char.toUpper) = method.token

/-- **A filter selects a request:** it is for the method, and its pattern matches the path. -/
def Selects (f : PathFilter) (method : Method) (path : String) : Prop :=
  f.IsFor method ∧ (PathPattern.ofString f.pathPattern).matches path = true

/-- **A filter honours its methods** if what is made of it matches only requests that it selects. -/
def HonoursMethods (f : PathFilter) : Prop :=
  ∀ method path, (RequestFilter.ofSettings f).matches method path = true → f.Selects method path

/-- A filter says for which methods it is: it lists none, or one that is a method. -/
def NamesMethods (f : PathFilter) : Prop :=
  f.methods = [] ∨ ∃ name ∈ f.methods, (Method.ofConfigured? name).isSome = true

/-- What is made of a filter matches by the methods among those that it lists, or any method if
there are none. -/
theorem matches_iff (f : PathFilter) (method : Method) (path : String) :
    (RequestFilter.ofSettings f).matches method path = true
      ↔ ((∀ name ∈ f.methods, Method.ofConfigured? name = none)
          ∨ ∃ name ∈ f.methods, Method.ofConfigured? name = some method)
        ∧ (PathPattern.ofString f.pathPattern).matches path = true := by
  rw [RequestFilter.matches, RequestFilter.ofSettings, Bool.and_eq_true, Bool.or_eq_true,
    List.isEmpty_iff, List.filterMap_eq_nil_iff, List.contains_iff_mem, List.mem_filterMap]

theorem ofConfigured?_eq_some {name : String} {method : Method}
    (hmethod : Method.ofString? method.token = some method)
    (hname : String.ofList (name.toList.map Char.toUpper) = method.token) :
    Method.ofConfigured? name = some method := by
  rw [Method.ofConfigured?, hname, hmethod]

/-- **A filter honours its methods exactly if it names some,** unless it lists none. -/
theorem honoursMethods_iff_namesMethods (f : PathFilter) : f.HonoursMethods ↔ f.NamesMethods := by
  constructor
  · intro hhonours
    by_contra hnames
    obtain ⟨hlisted, hnone⟩ := not_or.1 hnames
    have hunread : ∀ name ∈ f.methods, Method.ofConfigured? name = none := fun name hname =>
      Option.not_isSome_iff_eq_none.1 fun hsome => hnone ⟨name, hname, hsome⟩
    -- the filter matches its own text with any method, and none that is a method is listed
    have hmatches := (f.matches_iff .get f.pathPattern).2 ⟨.inl hunread, PathPattern.matches_text _⟩
    rcases (hhonours _ _ hmatches).1 with hempty | ⟨name, hname, hget⟩
    · exact hlisted hempty
    · cases (hunread name hname).symm.trans (ofConfigured?_eq_some (by decide) hget)
  · intro hnames method path hmatches
    obtain ⟨hmethod, hpath⟩ := (f.matches_iff method path).1 hmatches
    refine ⟨?_, hpath⟩
    rcases hmethod with hunread | ⟨name, hname, hread⟩
    · rcases hnames with hempty | ⟨name, hname, hsome⟩
      · exact .inl hempty
      · rw [hunread name hname] at hsome
        cases hsome
    · exact .inr ⟨name, hname, RouteEntry.token_of_ofConfigured? hread⟩

/-- A filter that honours its methods matches what it selects. -/
theorem HonoursMethods.matches_iff {f : PathFilter} (h : f.HonoursMethods) {method : Method}
    (hmethod : Method.ofString? method.token = some method) (path : String) :
    (RequestFilter.ofSettings f).matches method path = true ↔ f.Selects method path := by
  refine ⟨h method path, fun ⟨hfor, hpath⟩ => (f.matches_iff method path).2 ⟨?_, hpath⟩⟩
  rcases hfor with hempty | ⟨name, hname, htoken⟩
  · rw [hempty]
    exact .inl nofun
  · exact .inr ⟨name, hname, ofConfigured?_eq_some hmethod htoken⟩

end PathFilter

/-! ## What is recorded -/

/-- **The settings select a request:** recording is on, an included filter selects it or there are
none, and no excluded filter does. -/
def RecordingSettings.Selects (s : RecordingSettings) (method : Method) (path : String) : Prop :=
  s.enabled = true ∧ s.level ≠ .none ∧ (s.included = [] ∨ ∃ f ∈ s.included, f.Selects method path)
    ∧ ¬∃ f ∈ s.excluded, f.Selects method path

theorem any_matches_iff {filters : List PathFilter} (h : ∀ f ∈ filters, f.HonoursMethods)
    {method : Method} (hmethod : Method.ofString? method.token = some method) (path : String) :
    ((filters.map RequestFilter.ofSettings).any fun f => f.matches method path) = true
      ↔ ∃ f ∈ filters, f.Selects method path := by
  rw [List.any_map, List.any_eq_true]
  exact exists_congr fun f => and_congr_right fun hf => (h f hf).matches_iff hmethod path

theorem shouldRecord_iff {s : Settings}
    (h : ∀ f ∈ s.recording.included ++ s.recording.excluded, f.HonoursMethods) {method : Method}
    (hmethod : Method.ofString? method.token = some method) (path : String) :
    (Recorder.ofSettings s).shouldRecord method path = true ↔ s.recording.Selects method path := by
  have hincluded := any_matches_iff (fun f hf => h f (List.mem_append_left _ hf)) hmethod path
  have hexcluded := any_matches_iff (fun f hf => h f (List.mem_append_right _ hf)) hmethod path
  rw [Recorder.shouldRecord, RecordingSettings.Selects, ← hincluded, ← hexcluded]
  simp [Recorder.ofSettings, and_assoc]

namespace PathFilter

/-- **Filters and the methods that they list.** A filter honours its methods exactly if it lists
none, or one that is a method. A recorder that is made with such filters records exactly the
requests that its settings select. -/
theorem honoursMethods_iff (f : PathFilter) (s : Settings) :
    (f.HonoursMethods ↔ f.methods = []
      ∨ ∃ name ∈ f.methods, (Method.ofConfigured? name).isSome = true)
    ∧ ((∀ g ∈ s.recording.included ++ s.recording.excluded, g.HonoursMethods) →
        ∀ (method : Method) (path : String), Method.ofString? method.token = some method →
          ((Recorder.ofSettings s).shouldRecord method path = true
            ↔ s.recording.Selects method path)) :=
  ⟨f.honoursMethods_iff_namesMethods, fun h _ path hmethod => shouldRecord_iff h hmethod path⟩

/-- A filter that is for orders. -/
def orders (methods : List String) : PathFilter := { pathPattern := "/orders", methods }

/-- The standard settings, with the orders left out for the methods of a list. -/
def withoutOrders (methods : List String) : Settings :=
  { Settings.standard with
    recording := { RecordingSettings.standard with excluded := [orders methods] } }

theorem selects_withoutOrders {methods : List String} {method : Method} {path : String}
    (h : ¬(orders methods).IsFor method) :
    (withoutOrders methods).recording.Selects method path := by
  refine ⟨rfl, nofun, .inl rfl, ?_⟩
  rintro ⟨f, hf, hselects⟩
  cases List.mem_singleton.1 hf
  exact h hselects.1

/-- A list of two methods, of which one is none, leaves out the orders of the other and no more. -/
theorem honoursMethods_iff_mixed :
    let r := Recorder.ofSettings (withoutOrders ["po st", "get"])
    (orders ["po st", "get"]).HonoursMethods ∧ r.shouldRecord ⟨"GET"⟩ "/orders" = false
      ∧ r.shouldRecord ⟨"POST"⟩ "/orders" = true := by
  intro r
  obtain ⟨hhonours, hrecords⟩ :=
    honoursMethods_iff (orders ["po st", "get"]) (withoutOrders ["po st", "get"])
  have horders : (orders ["po st", "get"]).HonoursMethods :=
    hhonours.2 (.inr ⟨"get", by decide, by decide⟩)
  have hall : ∀ f ∈ [] ++ [orders ["po st", "get"]], f.HonoursMethods := fun f hf => by
    cases List.mem_singleton.1 hf
    exact horders
  refine ⟨horders, Bool.eq_false_iff.2 fun hrecorded => ?_, ?_⟩
  · obtain ⟨-, -, -, hexcluded⟩ := (hrecords hall ⟨"GET"⟩ "/orders" (by decide)).1 hrecorded
    have hfor : (orders ["po st", "get"]).IsFor ⟨"GET"⟩ := .inr ⟨"get", by decide, by decide⟩
    exact hexcluded ⟨_, List.mem_singleton_self _, hfor, PathPattern.matches_text _⟩
  · exact (hrecords hall ⟨"POST"⟩ "/orders" (by decide)).2
      (selects_withoutOrders (by simp [IsFor, orders]))

/-- **Left out by a filter that is not for it:** the one method listed is none, so the filter is
made into one for every method. -/
theorem not_honoursMethods_misspelled :
    let s := withoutOrders ["PO ST"]
    s.recording.Selects ⟨"GET"⟩ "/orders"
      ∧ (Recorder.ofSettings s).shouldRecord ⟨"GET"⟩ "/orders" = false
      ∧ ¬∀ f : PathFilter, f.HonoursMethods := by
  intro s
  have hselects : s.recording.Selects ⟨"GET"⟩ "/orders" :=
    selects_withoutOrders (by simp [IsFor, orders])
  have hmatches : (RequestFilter.ofSettings (orders ["PO ST"])).matches ⟨"GET"⟩ "/orders" = true :=
    ((orders ["PO ST"]).matches_iff ⟨"GET"⟩ "/orders").2
      ⟨.inl (by decide), PathPattern.matches_text _⟩
  have hleftOut : (Recorder.ofSettings s).shouldRecord ⟨"GET"⟩ "/orders" = false := by
    simp [Recorder.shouldRecord, Recorder.ofSettings, s, withoutOrders, hmatches]
  refine ⟨hselects, hleftOut, fun hall => ?_⟩
  exact absurd ((shouldRecord_iff (fun f _ => hall f) (by decide) "/orders").2 hselects)
    (Bool.eq_false_iff.1 hleftOut)

end PathFilter

end Traffic
end Gatehouse
