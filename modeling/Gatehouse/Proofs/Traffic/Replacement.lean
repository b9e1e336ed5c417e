/-
Masking some paths replaces everything that they address, all at once.

Paths are masked one after the other, and each of them meets the document that the ones before it
have left. The positions that they address are meant in the document as it was. The main statement
is that this makes no difference (`maskDocument_replaces`): the masked document is the original
one with the values at those positions replaced, and all other values keep their kind, their
elements and their fields.

`Json.replaceAt` says what replacing at once is. One cursor on a document in which some positions
are replaced already does nothing but replace the positions that it addresses in the original
(`Cursor.mask_replaceAt`). What it finds replaced is a scalar; a cursor either leaves a scalar alone
or puts the same text in its place.
-/
import Gatehouse.Proofs.Traffic.Addressing
import Mathlib.Data.List.Infix

set_option autoImplicit false

namespace Gatehouse

open Gatehouse.Traffic

/-! ## Values inside a document -/

namespace Json

/-- The values right inside a value, each with the step that leads to it. -/
def entries : Json → List (PathStep × Json)
  | .array items => items.map fun item => (.each, item)
  | .object fields => fields.map fun f => (.field f.1, f.2)
  | _ => []

/-- **The value at a position,** if there is one. -/
def valueAt? (d : Json) : List Nat → Option Json
  | [] => some d
  | i :: position => d.entries[i]?.bind fun entry => entry.2.valueAt? position

/-- **A value without what is inside it:** a scalar as it is, an array with the number of its
elements, an object with the names of its fields in order. -/
def outline : Json → Json
  | .array items => .array (items.map fun _ => .null)
  | .object fields => .object (fields.map fun f => (f.1, .null))
  | scalar => scalar

mutual

/-- **The document with the values at chosen positions replaced by a text,** all at once. What is
inside a value that is replaced goes with it. -/
def replaceAt (text : String) (chosen : List Nat → Bool) : Json → Json
  | .array items => if chosen [] then .string text else .array (replaceItems text chosen 0 items)
  | .object fields =>
    if chosen [] then .string text else .object (replaceFields text chosen 0 fields)
  | scalar => if chosen [] then .string text else scalar

/-- The elements of an array from a place on. -/
def replaceItems (text : String) (chosen : List Nat → Bool) (place : Nat) : List Json → List Json
  | [] => []
  | item :: rest =>
    replaceAt text (fun position => chosen (place :: position)) item
      :: replaceItems text chosen (place + 1) rest

/-- The fields of an object from a place on. -/
def replaceFields (text : String) (chosen : List Nat → Bool) (place : Nat) :
    List (String × Json) → List (String × Json)
  | [] => []
  | (name, value) :: rest =>
    (name, replaceAt text (fun position => chosen (place :: position)) value)
      :: replaceFields text chosen (place + 1) rest

end

/-- Documents by what is inside them. -/
theorem induct {motive : Json → Prop} (scalar : ∀ d, JsonPath.IsScalar d → motive d)
    (array : ∀ items, (∀ item ∈ items, motive item) → motive (.array items))
    (object : ∀ fields, (∀ f ∈ fields, motive f.2) → motive (.object fields))
    (d : Json) : motive d :=
  @Json.rec motive (fun items => ∀ item ∈ items, motive item)
    (fun fields => ∀ f ∈ fields, motive f.2)
    (fun f => motive f.2) (scalar _ trivial) (fun _ => scalar _ trivial) (fun _ => scalar _ trivial)
    (fun _ => scalar _ trivial) array object (fun _ h => absurd h List.not_mem_nil)
    (fun _ _ hitem hrest => List.forall_mem_cons.2 ⟨hitem, hrest⟩)
      (fun _ h => absurd h List.not_mem_nil)
    (fun _ _ hfield hrest => List.forall_mem_cons.2 ⟨hfield, hrest⟩) (fun _ _ hvalue => hvalue) d

/-! ## What replacing does -/

section

variable {text : String} {chosen : List Nat → Bool}

theorem replaceItems_eq (place : Nat) (items : List Json) :
    replaceItems text chosen place items
      = items.mapIdx fun i item => item.replaceAt text fun position =>
        chosen ((place + i) :: position) := by
  induction items generalizing place with
  | nil => rfl
  | cons item rest ih =>
    rw [replaceItems, ih, List.mapIdx_cons]
    simp only [Nat.add_zero, Nat.add_assoc, Nat.add_comm 1]

theorem replaceFields_eq (place : Nat) (fields : List (String × Json)) :
    replaceFields text chosen place fields
      = fields.mapIdx fun i f =>
        (f.1, f.2.replaceAt text fun position => chosen ((place + i) :: position)) := by
  induction fields generalizing place with
  | nil => rfl
  | cons f rest ih =>
    rw [replaceFields, ih, List.mapIdx_cons]
    simp only [Nat.add_zero, Nat.add_assoc, Nat.add_comm 1]

theorem replaceAt_of_chosen (h : chosen [] = true) (d : Json) :
    d.replaceAt text chosen = .string text := by
  cases d <;> simp [replaceAt, h]

theorem replaceAt_of_isScalar (h : chosen [] = false) {d : Json} (hd : JsonPath.IsScalar d) :
    d.replaceAt text chosen = d := by
  cases d with
  | array => exact hd.elim
  | object => exact hd.elim
  | _ => simp [replaceAt, h]

theorem replaceAt_array (h : chosen [] = false) (items : List Json) :
    (Json.array items).replaceAt text chosen
      = .array (items.mapIdx fun i item => item.replaceAt text fun position =>
          chosen (i :: position)) := by
  simp [replaceAt, h, replaceItems_eq]

theorem replaceAt_object (h : chosen [] = false) (fields : List (String × Json)) :
    (Json.object fields).replaceAt text chosen
      = .object (fields.mapIdx fun i f =>
          (f.1, f.2.replaceAt text fun position => chosen (i :: position))) := by
  simp [replaceAt, h, replaceFields_eq]

/-- A value that is not replaced keeps its entries, with replacements inside them. -/
theorem getElem?_entries_replaceAt (h : chosen [] = false) (d : Json) (i : Nat) :
    (d.replaceAt text chosen).entries[i]?
      = d.entries[i]?.map fun e =>
        (e.1, e.2.replaceAt text fun position => chosen (i :: position)) := by
  cases d with
  | array items => simp [replaceAt_array h, entries, Function.comp_def]
  | object fields => simp [replaceAt_object h, entries, Function.comp_def]
  | _ => simp [replaceAt, h, entries]

theorem outline_replaceAt (h : chosen [] = false) (d : Json) :
    (d.replaceAt text chosen).outline = d.outline := by
  cases d with
  | array items =>
    rw [replaceAt_array h]
    exact congrArg Json.array (List.ext_getElem? fun i => by simp)
  | object fields =>
    rw [replaceAt_object h]
    exact congrArg Json.object (List.ext_getElem? fun i => by simp [Function.comp_def])
  | _ => simp [replaceAt, h, outline]

theorem replaceAt_nowhere (d : Json) : d.replaceAt text (fun _ => false) = d := by
  induction d using Json.induct with
  | scalar d hd => exact replaceAt_of_isScalar rfl hd
  | array items ih =>
    rw [replaceAt_array rfl]
    refine congrArg Json.array (List.ext_getElem? fun i => ?_)
    rw [List.getElem?_mapIdx]
    cases hi : items[i]? with
    | none => rfl
    | some item => exact congrArg some (ih item (List.mem_of_getElem? hi))
  | object fields ih =>
    rw [replaceAt_object rfl]
    refine congrArg Json.object (List.ext_getElem? fun i => ?_)
    rw [List.getElem?_mapIdx]
    cases hi : fields[i]? with
    | none => rfl
    | some f => exact congrArg (fun value => some (f.1, value)) (ih f (List.mem_of_getElem? hi))

/-- **Where nothing above is replaced,** the value at a position is the one that was there, with the
replacements inside it. -/
theorem valueAt?_replaceAt {d : Json} {position : List Nat}
    (h : ∀ above, above <+: position → above ≠ position → chosen above = false) :
    (d.replaceAt text chosen).valueAt? position
      = (d.valueAt? position).map fun value => value.replaceAt text fun inside =>
        chosen (position ++ inside) := by
  induction position generalizing d chosen with
  | nil => rfl
  | cons i position ih =>
    have hhere : chosen [] = false := h [] List.nil_prefix (List.cons_ne_nil i position).symm
    rw [valueAt?, valueAt?, getElem?_entries_replaceAt hhere]
    cases d.entries[i]? with
    | none => rfl
    | some e =>
      refine ih fun above habove hne => h (i :: above) ?_ fun heq => hne (List.cons.inj heq).2
      exact List.cons_prefix_cons.2 ⟨rfl, habove⟩

end

end Json

namespace Traffic

/-! ## What is addressed, value by value -/

namespace JsonPath

instance decidableIsScalar : (d : Json) → Decidable (IsScalar d)
  | .array _ => .isFalse id
  | .object _ => .isFalse id
  | .null | .bool _ | .number _ | .string _ => .isTrue trivial

namespace Cursor

theorem addresses_nil_iff {c : Cursor} {d : Json} :
    c.Addresses d [] ↔ c = .whole ∨ c = .element ∧ IsScalar d := by
  cases c with
  | whole => simp [Addresses]
  | steps left => exact iff_of_false nofun (by simp)
  | element =>
    simp only [Addresses, reduceCtorEq, true_and, false_or]
    constructor
    · intro h
      cases h with
      | scalar _ h => exact h
    · exact .scalar d

theorem getElem?_entries_array {items : List Json} {i : Nat} {e : PathStep × Json} :
    (Json.array items).entries[i]? = some e
      ↔ ∃ item, items[i]? = some item ∧ (.each, item) = e := by
  rw [Json.entries, List.getElem?_map, Option.map_eq_some_iff]

theorem getElem?_entries_object {fields : List (String × Json)} {i : Nat} {e : PathStep × Json} :
    (Json.object fields).entries[i]? = some e
      ↔ ∃ f, fields[i]? = some f ∧ (.field f.1, f.2) = e := by
  rw [Json.entries, List.getElem?_map, Option.map_eq_some_iff]

/-- What is addressed inside a value is inside one of its entries. -/
theorem Addresses.exists_entry {c : Cursor} {d : Json} {i : Nat} {position : List Nat}
    (h : c.Addresses d (i :: position)) : ∃ e, d.entries[i]? = some e := by
  cases c with
  | whole => exact absurd h nofun
  | element =>
    cases h with
    | field fields _ hi =>
      exact ⟨_, getElem?_entries_object.2 ⟨_, List.getElem?_eq_getElem hi, rfl⟩⟩
    | nested items _ item _ hi => exact ⟨_, getElem?_entries_array.2 ⟨item, hi, rfl⟩⟩
  | steps left =>
    cases h with
    | field name fields _ value hi => exact ⟨_, getElem?_entries_object.2 ⟨_, hi, rfl⟩⟩
    | each items _ item _ hi => exact ⟨_, getElem?_entries_array.2 ⟨item, hi, rfl⟩⟩
    | inField name rest fields _ value _ hi => exact ⟨_, getElem?_entries_object.2 ⟨_, hi, rfl⟩⟩
    | inEach rest items _ item _ hi => exact ⟨_, getElem?_entries_array.2 ⟨item, hi, rfl⟩⟩

/-- What the cursor behind a step addresses is addressed from where the step begins. -/
theorem Addresses.of_next {c child : Cursor} {d : Json} {i : Nat} {position : List Nat}
    {e : PathStep × Json} (he : d.entries[i]? = some e) (hnext : c.next e.1 = some child)
    (h : child.Addresses e.2 position) :
    c.Addresses d (i :: position) := by
  cases d with
  | array items =>
    obtain ⟨item, hi, rfl⟩ := getElem?_entries_array.1 he
    match c, hnext with
    | .element, rfl => exact .nested items i item position hi h
    | .steps (.each :: []), rfl => exact .each items i item position hi h
    | .steps (.each :: second :: left), rfl =>
      exact .inEach (second :: left) items i item position hi h
  | object fields =>
    obtain ⟨⟨name, value⟩, hi, rfl⟩ := getElem?_entries_object.1 he
    match c, hnext with
    | .element, rfl =>
      cases h
      exact .field fields i (List.getElem?_eq_some_iff.1 hi).1
    | .steps (.field other :: left), hnext =>
      rw [next] at hnext
      split at hnext
      case isFalse => cases hnext
      case isTrue hname =>
        cases PathStep.field.inj hname
        cases left with
        | nil =>
          cases hnext
          cases h
          exact .field name fields i value hi
        | cons second left =>
          cases hnext
          exact .inField name (second :: left) fields i value position hi h
  | _ => exact absurd he (by simp [Json.entries])

/-- **A cursor addresses** what the cursor behind a step addresses in the value that
the step leads to. -/
theorem addresses_cons_iff {c : Cursor} {d : Json} {i : Nat} {position : List Nat} :
    c.Addresses d (i :: position)
      ↔ ∃ e, d.entries[i]? = some e ∧ ∃ child, c.next e.1 = some child
        ∧ child.Addresses e.2 position := by
  constructor
  · intro h
    obtain ⟨e, he⟩ := h.exists_entry
    refine ⟨e, he, ?_⟩
    cases d with
    | array items =>
      obtain ⟨item, hi, rfl⟩ := getElem?_entries_array.1 he
      exact h.next_each hi
    | object fields =>
      obtain ⟨f, hi, rfl⟩ := getElem?_entries_object.1 he
      exact h.next_field hi
    | _ => exact absurd he (by simp [Json.entries])
  · rintro ⟨e, he, child, hnext, h⟩
    exact .of_next he hnext h

/-- What is addressed is there. -/
theorem Addresses.exists_value {c : Cursor} {d : Json} {position : List Nat}
    (h : c.Addresses d position) :
    ∃ value, d.valueAt? position = some value := by
  induction position generalizing c d with
  | nil => exact ⟨d, rfl⟩
  | cons i position ih =>
    obtain ⟨e, he, child, -, hchild⟩ := addresses_cons_iff.1 h
    rw [Json.valueAt?, he]
    exact ih hchild

/-- What a cursor addresses is found by following it, one step after the other. -/
instance decidableAddresses :
    (c : Cursor) → (d : Json) → (position : List Nat) → Decidable (c.Addresses d position)
  | c, d, [] =>
    have : Decidable (c = .whole) := match c with
      | .whole => .isTrue rfl
      | .element | .steps _ => .isFalse nofun
    have : Decidable (c = .element) := match c with
      | .element => .isTrue rfl
      | .whole | .steps _ => .isFalse nofun
    decidable_of_iff _ addresses_nil_iff.symm
  | c, d, i :: position =>
    match he : d.entries[i]? with
    | none => .isFalse fun h => by
      obtain ⟨e, hentry⟩ := h.exists_entry
      cases he.symm.trans hentry
    | some e =>
      match hnext : c.next e.1 with
      | none => .isFalse fun h => by
        obtain ⟨found, hentry, child, hchild, -⟩ := addresses_cons_iff.1 h
        cases Option.some.inj (he.symm.trans hentry)
        cases hnext.symm.trans hchild
      | some child =>
        have := decidableAddresses child e.2 position
        decidable_of_iff (child.Addresses e.2 position) <| by
          simp [addresses_cons_iff, he, hnext]

/-! ## Masking where something is replaced already -/

/-- A cursor puts the text in the place of a text that is there already, or leaves it. -/
theorem mask_string (text : String) (c : Cursor) : c.mask text (.string text) = .string text := by
  cases c with
  | whole => rfl
  | element => rfl
  | steps left => exact maskSteps_of_isScalar text left trivial

section

variable {text : String} {c : Cursor} {d : Json} {chosen : List Nat → Bool}

theorem mask_replaceAt_of_here (h : chosen [] = true ∨ c.Addresses d []) :
    c.mask text (d.replaceAt text chosen)
      = d.replaceAt text fun position => chosen position || decide (c.Addresses d position) := by
  have hreplaced : (d.replaceAt text fun position => chosen position
      || decide (c.Addresses d position))
      = .string text := Json.replaceAt_of_chosen (by simpa using h) d
  rw [hreplaced]
  cases hchosen : chosen [] with
  | true => rw [Json.replaceAt_of_chosen hchosen, mask_string]
  | false =>
    rw [hchosen] at h
    rcases addresses_nil_iff.1 (h.resolve_left Bool.false_ne_true) with rfl | ⟨rfl, hscalar⟩
    · rfl
    · rw [Json.replaceAt_of_isScalar hchosen hscalar]
      exact maskElement_of_isScalar text hscalar

theorem not_here (h : ¬(chosen [] = true ∨ c.Addresses d [])) :
    chosen [] = false ∧ (chosen [] || decide (c.Addresses d [])) = false ∧ c ≠ .whole := by
  obtain ⟨hchosen, hno⟩ := not_or.1 h
  refine ⟨Bool.eq_false_iff.2 hchosen, by simp [hchosen, hno], fun hwhole => ?_⟩
  exact hno (addresses_nil_iff.2 (.inl hwhole))

/-- Behind a step a cursor replaces what it addresses behind the step. -/
theorem maskNext_replaceAt {i : Nat} {e : PathStep × Json} (he : d.entries[i]? = some e)
    (h : ∀ child : Cursor, child.mask text (e.2.replaceAt text chosen)
      = e.2.replaceAt text fun position => chosen position
      || decide (child.Addresses e.2 position)) :
    maskNext text (c.next e.1) (e.2.replaceAt text chosen)
      = e.2.replaceAt text fun position =>
        chosen position || decide (c.Addresses d (i :: position)) := by
  cases hnext : c.next e.1 with
  | none =>
    have hnothing : ∀ position, decide (c.Addresses d (i :: position)) = false := by
      simp [addresses_cons_iff, he, hnext]
    simp only [hnothing, Bool.or_false]
    rfl
  | some child =>
    have hchild : ∀ position,
        decide (c.Addresses d (i :: position)) = decide (child.Addresses e.2 position) := by
      simp [addresses_cons_iff, he, hnext]
    simp only [hchild]
    exact h child

/-- **A cursor where some positions are replaced already** replaces those that it addresses
in the original. -/
theorem mask_replaceAt (text : String) (c : Cursor) (d : Json) (chosen : List Nat → Bool) :
    c.mask text (d.replaceAt text chosen)
      = d.replaceAt text fun position => chosen position || decide (c.Addresses d position) := by
  induction d using Json.induct generalizing c chosen with
  | scalar d hscalar =>
    by_cases hhere : chosen [] = true ∨ c.Addresses d []
    case pos => exact mask_replaceAt_of_here hhere
    obtain ⟨hchosen, hboth, hc⟩ := not_here hhere
    rw [Json.replaceAt_of_isScalar hchosen hscalar, Json.replaceAt_of_isScalar hboth hscalar]
    -- a scalar that is not addressed has steps left, which lead nowhere from it
    cases c with
    | whole => exact absurd rfl hc
    | element => exact absurd (.inr (addresses_nil_iff.2 (.inr ⟨rfl, hscalar⟩))) hhere
    | steps left => exact maskSteps_of_isScalar text left hscalar
  | array items ih =>
    by_cases hhere : chosen [] = true ∨ c.Addresses (.array items) []
    case pos => exact mask_replaceAt_of_here hhere
    obtain ⟨hchosen, hboth, hc⟩ := not_here hhere
    rw [Json.replaceAt_array hchosen, mask_array text hc, Json.replaceAt_array hboth]
    refine congrArg Json.array (List.ext_getElem? fun i => ?_)
    rw [List.getElem?_map, List.getElem?_mapIdx, List.getElem?_mapIdx]
    cases hi : items[i]? with
    | none => rfl
    | some item =>
      refine congrArg some
        (maskNext_replaceAt (getElem?_entries_array.2 ⟨item, hi, rfl⟩) fun child => ?_)
      exact ih item (List.mem_of_getElem? hi) child _
  | object fields ih =>
    by_cases hhere : chosen [] = true ∨ c.Addresses (.object fields) []
    case pos => exact mask_replaceAt_of_here hhere
    obtain ⟨hchosen, hboth, hc⟩ := not_here hhere
    rw [Json.replaceAt_object hchosen, mask_object text hc, Json.replaceAt_object hboth]
    refine congrArg Json.object (List.ext_getElem? fun i => ?_)
    rw [List.getElem?_map, List.getElem?_mapIdx, List.getElem?_mapIdx]
    cases hi : fields[i]? with
    | none => rfl
    | some f =>
      refine congrArg (fun value => some (f.1, value))
        (maskNext_replaceAt (getElem?_entries_object.2 ⟨f, hi, rfl⟩) fun child => ?_)
      exact ih f (List.mem_of_getElem? hi) child _

end

end Cursor

/-! ## Masking several paths -/

instance (steps : List PathStep) (d : Json) (position : List Nat) :
    Decidable (Addressed steps d position) :=
  Cursor.decidableAddresses (.steps steps) d position

/-- **Masking some paths one after the other** replaces what any of them addresses in the
original. -/
theorem foldl_mask_replaceAt (text : String) (paths : List JsonPath) (d : Json)
    (chosen : List Nat → Bool) :
    paths.foldl (fun document path => path.mask text document) (d.replaceAt text chosen)
      = d.replaceAt text fun position =>
          chosen position || decide (∃ path ∈ paths, Addressed path.steps d position) := by
  induction paths generalizing chosen with
  | nil => simp
  | cons path paths ih =>
    have hfirst : path.mask text (d.replaceAt text chosen)
        = d.replaceAt text fun position =>
          chosen position || decide (Addressed path.steps d position) :=
      Cursor.mask_replaceAt text (.steps path.steps) d chosen
    rw [List.foldl_cons, hfirst, ih]
    refine congrArg (fun chosen => d.replaceAt text chosen) (funext fun position => ?_)
    rw [Bool.or_assoc, ← Bool.decide_or]
    exact congrArg (chosen position || ·) (decide_eq_decide.2 (by simp))

end JsonPath

/-! ## Masked documents -/

/-- At or above a position with some property there is a first one that has it. -/
theorem exists_first_prefix {P : List Nat → Prop} {position : List Nat} (h : P position) :
    ∃ first, first <+: position ∧ P first ∧ ∀ above, above <+: first → above ≠ first →
      ¬P above := by
  induction position generalizing P with
  | nil =>
    exact ⟨[], List.nil_prefix, h, fun above habove hne => absurd (List.prefix_nil.1 habove) hne⟩
  | cons i position ih =>
    by_cases hhere : P []
    case pos =>
      exact ⟨[], List.nil_prefix, hhere,
        fun above habove hne => absurd (List.prefix_nil.1 habove) hne⟩
    obtain ⟨first, hprefix, hfirst, habove⟩ := ih (P := fun below => P (i :: below)) h
    refine ⟨i :: first, List.cons_prefix_cons.2 ⟨rfl, hprefix⟩, hfirst, fun above hle hne => ?_⟩
    cases above with
    | nil => exact hhere
    | cons j above =>
      obtain ⟨rfl, hbelow⟩ := List.cons_prefix_cons.1 hle
      exact habove above hbelow fun heq => hne (congrArg _ heq)

namespace Masker

/-- A path of the masker addresses a position of a document. -/
def Addresses (m : Masker) (d : Json) (position : List Nat) : Prop :=
  ∃ path ∈ m.paths, JsonPath.Addressed path.steps d position

instance (m : Masker) (d : Json) (position : List Nat) : Decidable (m.Addresses d position) :=
  inferInstanceAs (Decidable (∃ path ∈ m.paths, _))

theorem maskDocument_eq_replaceAt (m : Masker) (d : Json) :
    m.maskDocument d = d.replaceAt m.mask fun position => decide (m.Addresses d position) := by
  have hall := JsonPath.foldl_mask_replaceAt m.mask m.paths d fun _ => false
  rw [Json.replaceAt_nowhere] at hall
  simp only [Bool.false_or] at hall
  exact hall

/-- **Masking replaces what is addressed, all at once.** The masked document is the original one
with the mask in the place of every value that a path addresses in it. No addressed value is left:
at its position, or at an addressed one above it, stands the mask. Every other value that is not
inside a replaced one is there with its kind and, if it is an array or an object, with as many
elements or the same fields in the same order. So neither the order of the paths nor their
repetition matters. -/
theorem maskDocument_replaces (m : Masker) (d : Json) :
    m.maskDocument d = d.replaceAt m.mask (fun position => decide (m.Addresses d position))
      ∧ (∀ position, m.Addresses d position → ∃ first, first <+: position ∧ m.Addresses d first
          ∧ (m.maskDocument d).valueAt? first = some (.string m.mask))
      ∧ (∀ position, (∀ above, above <+: position → ¬m.Addresses d above) →
          ((m.maskDocument d).valueAt? position).map Json.outline
            = (d.valueAt? position).map Json.outline)
      ∧ ∀ paths, (∀ path, path ∈ paths ↔ path ∈ m.paths) →
          ({ m with paths } : Masker).maskDocument d = m.maskDocument d := by
  refine ⟨m.maskDocument_eq_replaceAt d, fun position h => ?_, fun position h => ?_,
    fun paths h => ?_⟩
  · obtain ⟨first, hprefix, haddressed, habove⟩ := exists_first_prefix h
    have ⟨path, _, hpath⟩ := haddressed
    obtain ⟨value, hvalue⟩ := JsonPath.Cursor.Addresses.exists_value (c := .steps path.steps) hpath
    refine ⟨first, hprefix, haddressed, ?_⟩
    rw [maskDocument_eq_replaceAt,
      Json.valueAt?_replaceAt fun above hprefix hne =>
        decide_eq_false (habove above hprefix hne), hvalue]
    have hhere : decide (m.Addresses d (first ++ [])) = true := by
      rw [List.append_nil]
      exact decide_eq_true haddressed
    exact congrArg some (Json.replaceAt_of_chosen hhere value)
  · rw [maskDocument_eq_replaceAt,
      Json.valueAt?_replaceAt fun above hprefix _ => decide_eq_false (h above hprefix),
      Option.map_map]
    have hhere : decide (m.Addresses d (position ++ [])) = false := by
      rw [List.append_nil]
      exact decide_eq_false (h position (List.prefix_refl position))
    exact congrArg (Option.map · _) (funext (Json.outline_replaceAt hhere))
  · rw [maskDocument_eq_replaceAt, maskDocument_eq_replaceAt]
    have hsame : ∀ position, ({ m with paths } : Masker).Addresses d position
        ↔ m.Addresses d position :=
      fun position => exists_congr fun path => and_congr_left fun _ => h path
    simp only [hsame]

/-- A path to a user, one to something inside, and two that overlap in the elements of an array. -/
def overlapping : Masker :=
  { mask := "****", headers := [], parameters := []
    paths := [⟨[.field "user", .field "name"]⟩, ⟨[.field "user"]⟩, ⟨[.field "cards", .each]⟩,
      ⟨[.field "cards", .each, .field "number"]⟩, ⟨[.field "cards", .each, .each]⟩] }

/-- A user with two cards and a list of cards inside the list. -/
def account : Json :=
  .object [("id", .nat 7), ("user", .object [("name", .string "u")]),
    ("cards", .array
      [.nat 4711, .object [("number", .nat 1), ("pin", .nat 2)], .array [.nat 4712]])]

theorem maskDocument_replaces_overlapping :
    overlapping.maskDocument account
        = .object [("id", .nat 7), ("user", .string "****"),
            ("cards", .array
              [.string "****", .object [("number", .string "****"), ("pin", .string "****")],
                .array [.string "****"]])]
      ∧ overlapping.maskDocument account
        = account.replaceAt "****" (fun position => decide (overlapping.Addresses account position))
      ∧ overlapping.Addresses account [1, 0]
      ∧ (∃ first, first <+: [1, 0] ∧ overlapping.Addresses account first
          ∧ (overlapping.maskDocument account).valueAt? first = some (.string "****"))
      ∧ ((overlapping.maskDocument account).valueAt? [2, 1]).map Json.outline
        = some (.object [("number", .null), ("pin", .null)])
      ∧ ({ overlapping with paths := overlapping.paths.reverse } : Masker).maskDocument account
        = overlapping.maskDocument account := by
  obtain ⟨hreplaced, hnothingLeft, hkept, horder⟩ := maskDocument_replaces overlapping account
  have haddressed : overlapping.Addresses account [1, 0] := by decide
  have habove : ∀ above, above <+: [2, 1] → ¬overlapping.Addresses account above := by
    intro above hprefix
    rw [← List.mem_inits] at hprefix
    revert above
    decide
  refine ⟨rfl, hreplaced, haddressed, hnothingLeft _ haddressed, (hkept _ habove).trans rfl, ?_⟩
  exact horder _ fun path => List.mem_reverse

end Masker
end Traffic
end Gatehouse
