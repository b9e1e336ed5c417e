/-
What paths address, and documents that differ there only.

A position of a document is the list of the places of its children on the way from the root. A path
addresses positions (`Addressed`), and two documents may agree everywhere but at some positions
(`AgreeExcept`). The main statement is that masking along some paths, one after the other, makes
documents equal that agree except at positions that the paths address in both
(`AgreeExcept.foldl_mask`).

Masking one path changes the document that the next path sees, so positions are not what an
induction can hold on to. The proof goes by cursors: what is left of the paths at a value, as one
descends. Both documents have the same cursors at the same value, and masking along the first
cursor leaves documents that agree except for what the other cursors address, whatever the first
one has hidden from them.
-/
import Gatehouse.Traffic.Masking

set_option autoImplicit false

namespace Gatehouse.Traffic.JsonPath

/-! ## Positions -/

/-- A value without values in it. -/
def IsScalar : Json → Prop
  | .array _ => False
  | .object _ => False
  | _ => True

/-- **Positions in an element that a path ends at:** the element itself if it is a scalar,
the value of each of its fields if it is an object, and the positions in its own elements if
it is an array. -/
inductive AddressedElement : Json → List Nat → Prop where
  | scalar (d : Json) (h : IsScalar d) : AddressedElement d []
  | field (fields : List (String × Json)) (i : Nat) (hi : i < fields.length) :
    AddressedElement (.object fields) [i]
  | nested (items : List Json) (i : Nat) (item : Json) (position : List Nat)
      (hi : items[i]? = some item) (h : AddressedElement item position) :
      AddressedElement (.array items) (i :: position)

/-- **Positions that some steps address** in a document. -/
inductive Addressed : List PathStep → Json → List Nat → Prop where
  | field (name : String) (fields : List (String × Json)) (i : Nat) (value : Json)
      (hi : fields[i]? = some (name, value)) : Addressed [.field name] (.object fields) [i]
  | each (items : List Json) (i : Nat) (item : Json) (position : List Nat)
      (hi : items[i]? = some item) (h : AddressedElement item position) :
      Addressed [.each] (.array items) (i :: position)
  | inField (name : String) (rest : List PathStep) (fields : List (String × Json)) (i : Nat)
      (value : Json) (position : List Nat) (hi : fields[i]? = some (name, value))
      (h : Addressed rest value position) :
    Addressed (.field name :: rest) (.object fields) (i :: position)
  | inEach (rest : List PathStep) (items : List Json) (i : Nat) (item : Json) (position : List Nat)
      (hi : items[i]? = some item) (h : Addressed rest item position) :
    Addressed (.each :: rest) (.array items) (i :: position)

/-- **Two documents agree except at some positions:** values there may be any two, and all others
are the same, field by field and element by element. -/
inductive AgreeExcept : (List Nat → Prop) → Json → Json → Prop where
  | except (P : List Nat → Prop) (d e : Json) (h : P []) : AgreeExcept P d e
  | same (P : List Nat → Prop) (d : Json) : AgreeExcept P d d
  | array (P : List Nat → Prop) (items others : List Json) (hlength : items.length = others.length)
      (h : ∀ (i : Nat) (item other : Json), items[i]? = some item → others[i]? = some other →
        AgreeExcept (fun position => P (i :: position)) item other) :
    AgreeExcept P (.array items) (.array others)
  | object (P : List Nat → Prop) (fields others : List (String × Json))
      (hnames : fields.map (·.1) = others.map (·.1))
      (h : ∀ (i : Nat) (field other : String × Json), fields[i]? = some field →
        others[i]? = some other →
        AgreeExcept (fun position => P (i :: position)) field.2 other.2) :
    AgreeExcept P (.object fields) (.object others)

/-! ## Cursors -/

/-- **Cursor:** what is left of a path at a value. -/
inductive Cursor where
  /-- The path ends here, and the value is addressed as a whole. -/
  | whole
  /-- The path ends here, and the value is one of the elements that it ends at. -/
  | element
  /-- Some steps are left. -/
  | steps (left : List PathStep)

namespace Cursor

/-- The value with everything masked that a cursor addresses. -/
def mask (text : String) : Cursor → Json → Json
  | .whole, _ => .string text
  | .element, d => maskElement text d
  | .steps left, d => maskSteps text left d

/-- The cursor behind a step, with the steps that are left after it. -/
def behind : PathStep → List PathStep → Cursor
  | .field _, [] => .whole
  | .each, [] => .element
  | _, left => .steps left

/-- The cursor at the values that a step leads to, if the path goes there. -/
def next : Cursor → PathStep → Option Cursor
  | .whole, _ => none
  | .element, step => some (behind step [])
  | .steps [], _ => none
  | .steps (first :: left), step => if first = step then some (behind first left) else none

/-- A value with everything masked that a cursor addresses, if there is a cursor. -/
def maskNext (text : String) : Option Cursor → Json → Json
  | none, d => d
  | some c, d => c.mask text d

def Addresses : Cursor → Json → List Nat → Prop
  | .whole, _, position => position = []
  | .element, d, position => AddressedElement d position
  | .steps left, d, position => Addressed left d position

section

variable (text : String)

theorem maskElements_eq_map (items : List Json) :
    maskElements text items = items.map (maskElement text) := by
  induction items with
  | nil => rfl
  | cons item rest ih => rw [maskElements, ih, List.map_cons]

theorem maskSteps_each_array (left : List PathStep) (items : List Json) :
    maskSteps text (.each :: left) (.array items)
      = .array (items.map ((behind .each left).mask text)) := by
  cases left with
  | nil => rw [maskSteps, maskElements_eq_map]; rfl
  | cons second rest =>
    rw [maskSteps]
    · rfl
    · exact nofun

theorem maskSteps_field_object (name : String) (left : List PathStep)
    (fields : List (String × Json)) :
    maskSteps text (.field name :: left) (.object fields) = .object (fields.map fun f =>
      if f.1 = name then (f.1, (behind (.field name) left).mask text f.2) else f) := by
  cases left with
  | nil => rw [maskSteps]; rfl
  | cons second rest =>
    rw [maskSteps]
    · rfl
    · exact nofun

theorem maskSteps_of_isScalar (left : List PathStep) {d : Json} (h : IsScalar d) :
    maskSteps text left d = d := by
  cases d with
  | array items => exact h.elim
  | object fields => exact h.elim
  | _ => cases left <;> simp [maskSteps]

theorem maskElement_of_isScalar {d : Json} (h : IsScalar d) :
    maskElement text d = .string text := by
  cases d with
  | array items => exact h.elim
  | object fields => exact h.elim
  | _ => rfl

theorem isScalar_mask (c : Cursor) {d : Json} (h : IsScalar d) : IsScalar (c.mask text d) := by
  cases c with
  | whole => trivial
  | element =>
    rw [mask, maskElement_of_isScalar text h]
    trivial
  | steps left =>
    rw [mask, maskSteps_of_isScalar text left h]
    exact h

/-- A cursor masks an array by masking its elements, unless the array is addressed as a whole. -/
theorem mask_array {c : Cursor} (hc : c ≠ .whole) (items : List Json) :
    c.mask text (.array items) = .array (items.map (maskNext text (c.next .each))) := by
  have hnone : items.map (maskNext text none) = items := List.map_id' items
  cases c with
  | whole => exact absurd rfl hc
  | element => rw [mask, maskElement, maskElements_eq_map]; rfl
  | steps left =>
    match left with
    | [] => rw [mask, maskSteps, next, hnone]
    | .each :: rest => rw [mask, maskSteps_each_array, next, if_pos rfl]; rfl
    | .field name :: rest =>
      rw [next, if_neg nofun, hnone, mask]
      simp [maskSteps]

theorem mask_object {c : Cursor} (hc : c ≠ .whole) (fields : List (String × Json)) :
    c.mask text (.object fields)
      = .object (fields.map fun f => (f.1, maskNext text (c.next (.field f.1)) f.2)) := by
  have hnone : (fields.map fun f => (f.1, maskNext text none f.2)) = fields := List.map_id' fields
  cases c with
  | whole => exact absurd rfl hc
  | element => rw [mask, maskElement]; rfl
  | steps left =>
    match left with
    | [] =>
      rw [mask, maskSteps]
      exact congrArg Json.object hnone.symm
    | .each :: rest =>
      have hnext : ∀ name, next (.steps (.each :: rest)) (.field name) = none := by
        intro name
        rw [next, if_neg nofun]
      simp only [hnext, hnone, mask]
      simp [maskSteps]
    | .field name :: rest =>
      rw [mask, maskSteps_field_object]
      refine congrArg Json.object (List.map_congr_left fun f _ => ?_)
      by_cases hname : f.1 = name
      · rw [if_pos hname, next, if_pos (congrArg PathStep.field hname.symm)]
        rfl
      · rw [if_neg hname, next, if_neg fun heq => hname (PathStep.field.inj heq).symm]
        rfl

end

end Cursor

/-! ## Agreement by cursors -/

/-- What some cursors are at the values that a step leads to. -/
def Cursor.nextAll (cs : List Cursor) (step : PathStep) : List Cursor :=
  cs.filterMap fun c => c.next step

theorem Cursor.nextAll_cons_none {c : Cursor} {step : PathStep} (h : c.next step = none)
    (cs : List Cursor) :
    nextAll (c :: cs) step = nextAll cs step :=
  List.filterMap_cons_none h

theorem Cursor.nextAll_cons_some {c child : Cursor} {step : PathStep} (h : c.next step = some child)
    (cs : List Cursor) : nextAll (c :: cs) step = child :: nextAll cs step :=
  List.filterMap_cons_some h

/-- Two documents agree except for what some cursors address in both. -/
inductive Agree : List Cursor → Json → Json → Prop where
  | whole (cs : List Cursor) (d e : Json) (h : .whole ∈ cs) : Agree cs d e
  | scalars (cs : List Cursor) (d e : Json) (h : .element ∈ cs) (hd : IsScalar d)
      (he : IsScalar e) :
    Agree cs d e
  | same (cs : List Cursor) (d : Json) : Agree cs d d
  | array (cs : List Cursor) (items others : List Json) (hlength : items.length = others.length)
      (h : ∀ (i : Nat) (item other : Json), items[i]? = some item → others[i]? = some other →
        Agree (Cursor.nextAll cs .each) item other) :
    Agree cs (.array items) (.array others)
  | object (cs : List Cursor) (fields others : List (String × Json))
      (hnames : fields.map (·.1) = others.map (·.1))
      (h : ∀ (i : Nat) (field other : String × Json), fields[i]? = some field →
        others[i]? = some other →
        Agree (Cursor.nextAll cs (.field field.1)) field.2 other.2) :
    Agree cs (.object fields) (.object others)

theorem name_eq_of_names {fields others : List (String × Json)} {field other : String × Json}
    {i : Nat} (hnames : fields.map (·.1) = others.map (·.1)) (hfield : fields[i]? = some field)
    (hother : others[i]? = some other) : field.1 = other.1 := by
  have hboth : (fields.map (·.1))[i]? = (others.map (·.1))[i]? := by rw [hnames]
  rw [List.getElem?_map, List.getElem?_map, hfield, hother] at hboth
  exact Option.some.inj hboth

/-- **Masking along one cursor** leaves documents that agree except for what the others address. -/
theorem Agree.mask_first {c : Cursor} {cs : List Cursor} {d e : Json} (h : Agree (c :: cs) d e)
    (text : String) : Agree cs (c.mask text d) (c.mask text e) := by
  generalize hall : c :: cs = all at h
  induction h generalizing c cs with
  | whole all d e h =>
    subst hall
    rcases List.mem_cons.1 h with rfl | hmem
    · exact .same cs _
    · exact .whole cs _ _ hmem
  | scalars all d e h hd he =>
    subst hall
    rcases List.mem_cons.1 h with rfl | hmem
    · rw [Cursor.mask, Cursor.mask, Cursor.maskElement_of_isScalar text hd,
        Cursor.maskElement_of_isScalar text he]
      exact .same cs _
    · exact .scalars cs _ _ hmem (Cursor.isScalar_mask text c hd) (Cursor.isScalar_mask text c he)
  | same all d => exact .same cs _
  | array all items others hlength h ih =>
    subst hall
    by_cases hc : c = .whole
    · subst hc
      exact .same cs _
    rw [Cursor.mask_array text hc, Cursor.mask_array text hc]
    refine .array cs _ _ (by rw [List.length_map, List.length_map, hlength])
      fun i item other hi ho => ?_
    rw [List.getElem?_map] at hi ho
    obtain ⟨item, hitem, rfl⟩ := Option.map_eq_some_iff.1 hi
    obtain ⟨other, hother, rfl⟩ := Option.map_eq_some_iff.1 ho
    -- the elements have the first cursor too, or they have the other ones alone
    cases hnext : c.next .each with
    | none =>
      have hrest := h i item other hitem hother
      rwa [Cursor.nextAll_cons_none hnext] at hrest
    | some child => exact ih i item other hitem hother (Cursor.nextAll_cons_some hnext cs).symm
  | object all fields others hnames h ih =>
    subst hall
    by_cases hc : c = .whole
    · subst hc
      exact .same cs _
    have hkept : ∀ fields : List (String × Json),
        (fields.map fun f => (f.1, Cursor.maskNext text (c.next (.field f.1)) f.2)).map (·.1)
          = fields.map (·.1) := by
      intro fields
      rw [List.map_map]
      rfl
    rw [Cursor.mask_object text hc, Cursor.mask_object text hc]
    refine .object cs _ _ (by rw [hkept, hkept, hnames]) fun i field other hi ho => ?_
    rw [List.getElem?_map] at hi ho
    obtain ⟨field, hfield, rfl⟩ := Option.map_eq_some_iff.1 hi
    obtain ⟨other, hother, rfl⟩ := Option.map_eq_some_iff.1 ho
    dsimp only
    rw [← name_eq_of_names hnames hfield hother]
    cases hnext : c.next (.field field.1) with
    | none =>
      have hrest := h i field other hfield hother
      rwa [Cursor.nextAll_cons_none hnext] at hrest
    | some child => exact ih i field other hfield hother (Cursor.nextAll_cons_some hnext cs).symm

/-- Without cursors documents agree if they are the same. -/
theorem Agree.eq_of_nil {d e : Json} (h : Agree [] d e) : d = e := by
  generalize hnil : ([] : List Cursor) = cs at h
  induction h with
  | whole cs d e h => exact absurd (hnil ▸ h) List.not_mem_nil
  | scalars cs d e h => exact absurd (hnil ▸ h) List.not_mem_nil
  | same cs d => rfl
  | array cs items others hlength h ih =>
    subst hnil
    refine congrArg Json.array (List.ext_getElem hlength fun i hi ho => ?_)
    exact ih i _ _ (List.getElem?_eq_getElem hi) (List.getElem?_eq_getElem ho) rfl
  | object cs fields others hnames h ih =>
    subst hnil
    have hlength : fields.length = others.length := by
      have hboth := congrArg List.length hnames
      rwa [List.length_map, List.length_map] at hboth
    refine congrArg Json.object (List.ext_getElem hlength fun i hi ho => ?_)
    have hfield := List.getElem?_eq_getElem hi
    have hother := List.getElem?_eq_getElem ho
    exact Prod.ext (name_eq_of_names hnames hfield hother) (ih i _ _ hfield hother rfl)

/-! ## From positions to cursors -/

/-- What is addressed below an array is addressed from the element that it lies in. -/
theorem Cursor.Addresses.next_each {c : Cursor} {items : List Json} {i : Nat} {position : List Nat}
    {item : Json} (h : c.Addresses (.array items) (i :: position)) (hi : items[i]? = some item) :
    ∃ child, c.next .each = some child ∧ child.Addresses item position := by
  cases c with
  | whole => exact absurd h nofun
  | element =>
    cases h with
    | nested _ _ found _ hfound h =>
      rw [Option.some.inj (hi.symm.trans hfound)]
      exact ⟨.element, rfl, h⟩
  | steps left =>
    cases h with
    | each _ _ found _ hfound h =>
      rw [Option.some.inj (hi.symm.trans hfound)]
      exact ⟨.element, rfl, h⟩
    | inEach rest _ _ found _ hfound h =>
      rw [Option.some.inj (hi.symm.trans hfound)]
      cases rest with
      | nil => exact absurd h nofun
      | cons first rest => exact ⟨.steps (first :: rest), rfl, h⟩

theorem Cursor.Addresses.next_field {c : Cursor} {fields : List (String × Json)} {i : Nat}
    {position : List Nat} {field : String × Json} (h : c.Addresses (.object fields) (i :: position))
    (hi : fields[i]? = some field) :
    ∃ child, c.next (.field field.1) = some child ∧ child.Addresses field.2 position := by
  cases c with
  | whole => exact absurd h nofun
  | element =>
    cases h with
    | field => exact ⟨.whole, rfl, rfl⟩
  | steps left =>
    cases h with
    | field name _ _ value hfound =>
      rw [Option.some.inj (hi.symm.trans hfound)]
      exact ⟨.whole, if_pos rfl, rfl⟩
    | inField name rest _ _ value _ hfound h =>
      rw [Option.some.inj (hi.symm.trans hfound)]
      cases rest with
      | nil => exact absurd h nofun
      | cons first rest => exact ⟨.steps (first :: rest), if_pos rfl, h⟩

theorem Cursor.exists_nextAll {cs : List Cursor} {step : PathStep} {c child : Cursor} (hc : c ∈ cs)
    (hnext : c.next step = some child) : child ∈ nextAll cs step :=
  List.mem_filterMap.2 ⟨c, hc, hnext⟩

/-- **Documents that agree except at positions that some cursors address** agree except for what the
cursors address. -/
theorem AgreeExcept.agree {P : List Nat → Prop} {d e : Json} (h : AgreeExcept P d e)
    {cs : List Cursor} (hd : ∀ position, P position → ∃ c ∈ cs, c.Addresses d position)
    (he : ∀ position, P position → ∃ c ∈ cs, c.Addresses e position) : Agree cs d e := by
  induction h generalizing cs with
  | except P d e h =>
    -- the value itself is addressed: as a whole, or as an element, which it is in both documents
    obtain ⟨c, hc, haddressed⟩ := hd [] h
    obtain ⟨c', hc', haddressed'⟩ := he [] h
    cases c with
    | whole => exact .whole cs d e hc
    | steps left => exact absurd haddressed nofun
    | element =>
      cases c' with
      | whole => exact .whole cs d e hc'
      | steps left => exact absurd haddressed' nofun
      | element =>
        cases haddressed with
        | scalar _ hscalar =>
          cases haddressed' with
          | scalar _ hscalar' => exact .scalars cs d e hc hscalar hscalar'
  | same P d => exact .same cs d
  | array P items others hlength h ih =>
    refine .array cs items others hlength fun i item other hi ho => ih i item other hi ho ?_ ?_
    · intro position hposition
      obtain ⟨c, hc, haddressed⟩ := hd (i :: position) hposition
      obtain ⟨child, hnext, hchild⟩ := haddressed.next_each hi
      exact ⟨child, Cursor.exists_nextAll hc hnext, hchild⟩
    · intro position hposition
      obtain ⟨c, hc, haddressed⟩ := he (i :: position) hposition
      obtain ⟨child, hnext, hchild⟩ := haddressed.next_each ho
      exact ⟨child, Cursor.exists_nextAll hc hnext, hchild⟩
  | object P fields others hnames h ih =>
    refine .object cs fields others hnames fun i field other hi ho => ih i field other hi ho ?_ ?_
    · intro position hposition
      obtain ⟨c, hc, haddressed⟩ := hd (i :: position) hposition
      obtain ⟨child, hnext, hchild⟩ := haddressed.next_field hi
      exact ⟨child, Cursor.exists_nextAll hc hnext, hchild⟩
    · intro position hposition
      obtain ⟨c, hc, haddressed⟩ := he (i :: position) hposition
      obtain ⟨child, hnext, hchild⟩ := haddressed.next_field ho
      rw [← name_eq_of_names hnames hi ho] at hnext
      exact ⟨child, Cursor.exists_nextAll hc hnext, hchild⟩

/-! ## Masking all paths -/

theorem Agree.foldl_mask (text : String) (paths : List JsonPath) {d e : Json}
    (h : Agree (paths.map fun path => .steps path.steps) d e) :
    paths.foldl (fun document path => path.mask text document) d
      = paths.foldl (fun document path => path.mask text document) e := by
  induction paths generalizing d e with
  | nil => exact h.eq_of_nil
  | cons path paths ih => exact ih (h.mask_first text)

/-- **Masking some paths one after the other** makes documents equal that agree except at positions
that are addressed in both. -/
theorem AgreeExcept.foldl_mask (text : String) {paths : List JsonPath} {P : List Nat → Prop}
    {d e : Json} (h : AgreeExcept P d e)
    (hd : ∀ position, P position → ∃ path ∈ paths, Addressed path.steps d position)
    (he : ∀ position, P position → ∃ path ∈ paths, Addressed path.steps e position) :
    paths.foldl (fun document path => path.mask text document) d
      = paths.foldl (fun document path => path.mask text document) e := by
  refine Agree.foldl_mask text paths (h.agree ?_ ?_)
  · intro position hposition
    obtain ⟨path, hpath, haddressed⟩ := hd position hposition
    exact ⟨.steps path.steps, List.mem_map.2 ⟨path, hpath, rfl⟩, haddressed⟩
  · intro position hposition
    obtain ⟨path, hpath, haddressed⟩ := he position hposition
    exact ⟨.steps path.steps, List.mem_map.2 ⟨path, hpath, rfl⟩, haddressed⟩

end Gatehouse.Traffic.JsonPath
