/-
A document that is written on one line is read again.

A document of the reader has distinct names in every object, numbers of the format only, and
brackets nested no deeper than the reader goes (`within_of_read`). Any such document is read from
its text as it was, but for the reals in it, which may be read as neighbours (`value?_chars`,
`Json.reread`). The induction is on the document, and it says with how many steps of reading its
text is read: two for each character. What is behind the text plays no part in that, as long as no
number can go on there, so the same statement serves for what is inside a document.
-/
import Gatehouse.Proofs.Json.Strings
import Gatehouse.Proofs.Tables

set_option autoImplicit false

namespace Gatehouse.Json

/-! ## Documents of the reader -/

/-- **A document that the reader can give** within a depth of brackets. -/
inductive Within : Nat → Json → Prop where
  | null (depth : Nat) : Within depth .null
  | bool (depth : Nat) (value : Bool) : Within depth (.bool value)
  | number (depth : Nat) (n : Numeral) (hfits : n.Fits) : Within depth (.number n)
  | string (depth : Nat) (s : String) : Within depth (.string s)
  | array (depth : Nat) (items : List Json) (hitems : ∀ item ∈ items, Within depth item) :
    Within (depth + 1) (.array items)
  | object (depth : Nat) (fields : List (String × Json)) (hnames : (Table.keys fields).Nodup)
    (hfields : ∀ f ∈ fields, Within depth f.2) : Within (depth + 1) (.object fields)

mutual

/-- **How deep the brackets of a document are nested.** -/
def nesting : Json → Nat
  | .array items => nestingOfItems items + 1
  | .object fields => nestingOfFields fields + 1
  | _ => 0

def nestingOfItems : List Json → Nat
  | [] => 0
  | item :: rest => max (nesting item) (nestingOfItems rest)

def nestingOfFields : List (String × Json) → Nat
  | [] => 0
  | (_, value) :: rest => max (nesting value) (nestingOfFields rest)

end

theorem nestingOfItems_le_iff {items : List Json} {depth : Nat} :
    nestingOfItems items ≤ depth ↔ ∀ item ∈ items, item.nesting ≤ depth := by
  induction items with
  | nil => exact iff_of_true (Nat.zero_le _) nofun
  | cons item rest ih => rw [nestingOfItems, Nat.max_le, ih, List.forall_mem_cons]

theorem nestingOfFields_le_iff {fields : List (String × Json)} {depth : Nat} :
    nestingOfFields fields ≤ depth ↔ ∀ f ∈ fields, f.2.nesting ≤ depth := by
  induction fields with
  | nil => exact iff_of_true (Nat.zero_le _) nofun
  | cons f rest ih => rw [nestingOfFields, Nat.max_le, ih, List.forall_mem_cons]

/-- A document of the reader is nested no deeper than the reader goes. -/
theorem Within.nesting_le {depth : Nat} {d : Json} (h : Within depth d) : d.nesting ≤ depth := by
  induction h with
  | null => exact Nat.zero_le _
  | bool => exact Nat.zero_le _
  | number => exact Nat.zero_le _
  | string => exact Nat.zero_le _
  | array _ items _ ih => exact Nat.succ_le_succ (nestingOfItems_le_iff.2 ih)
  | object _ fields _ _ ih => exact Nat.succ_le_succ (nestingOfFields_le_iff.2 ih)

/-- A document that some reader can give is given by any that goes down as deep. -/
theorem Within.of_nesting_le {depth limit : Nat} {d : Json} (h : Within depth d)
    (hle : d.nesting ≤ limit) :
    Within limit d := by
  induction h generalizing limit with
  | null => exact .null limit
  | bool _ value => exact .bool limit value
  | number _ n hfits => exact .number limit n hfits
  | string _ s => exact .string limit s
  | array depth items _ ih =>
    obtain ⟨limit, rfl⟩ := Nat.exists_eq_succ_of_ne_zero (Nat.ne_zero_of_lt hle)
    have hitems := nestingOfItems_le_iff.1 (Nat.succ_le_succ_iff.1 hle)
    exact .array _ items fun item hitem => ih item hitem (hitems item hitem)
  | object depth fields hnames _ ih =>
    obtain ⟨limit, rfl⟩ := Nat.exists_eq_succ_of_ne_zero (Nat.ne_zero_of_lt hle)
    have hfields := nestingOfFields_le_iff.1 (Nat.succ_le_succ_iff.1 hle)
    exact .object _ fields hnames fun f hf => ih f hf (hfields f hf)

/-- A reader that goes deeper gives the same documents and more. -/
theorem Within.mono {depth limit : Nat} {d : Json} (h : Within depth d) (hle : depth ≤ limit) :
    Within limit d :=
  h.of_nesting_le (h.nesting_le.trans hle)

section

variable {fuel depth : Nat} {text rest : List Char}

/-- Where the reader finds a document with something inside it, that is read one
level further down. -/
theorem within_of_value?
    (hitems : ∀ {depth text items rest}, items? fuel depth text = some (items, rest) →
      ∀ item ∈ items, Within depth item)
    (hfields : ∀ {depth text fields rest}, fields? fuel depth [] text = some (fields, rest) →
      (Table.keys fields).Nodup ∧ ∀ f ∈ fields, Within depth f.2)
    {d : Json} (h : value? (fuel + 1) depth text = some (d, rest)) : Within depth d := by
  unfold value? at h
  split at h
  · cases h
  · cases h
  · obtain ⟨r, -, heq⟩ := Option.map_eq_some_iff.1 h
    cases heq
    exact .string _ _
  · obtain rfl := Nat.succ.inj ‹fuel + 1 = Nat.succ _›
    split at h
    · cases h
      exact .array _ [] nofun
    · obtain ⟨r, hread, heq⟩ := Option.map_eq_some_iff.1 h
      cases heq
      exact .array _ _ (hitems hread)
  · obtain rfl := Nat.succ.inj ‹fuel + 1 = Nat.succ _›
    split at h
    · cases h
      exact .object _ [] List.nodup_nil nofun
    · obtain ⟨r, hread, heq⟩ := Option.map_eq_some_iff.1 h
      cases heq
      exact .object _ _ (hfields hread).1 (hfields hread).2
  · obtain ⟨r, -, heq⟩ := Option.map_eq_some_iff.1 h
    cases heq
    exact .null _
  · obtain ⟨r, -, heq⟩ := Option.map_eq_some_iff.1 h
    cases heq
    exact .bool _ _
  · obtain ⟨r, -, heq⟩ := Option.map_eq_some_iff.1 h
    cases heq
    exact .bool _ _
  · obtain ⟨r, hread, heq⟩ := Option.map_eq_some_iff.1 h
    cases heq
    exact .number _ _ (numeral?_fits hread)

/-- Items are read one after the other. -/
theorem items?_cases {items : List Json} (h : items? (fuel + 1) depth text = some (items, rest)) :
    ∃ item after more, value? fuel depth text = some (item, after) ∧ items = item :: more
      ∧ (more = [] ∨ ∃ next, items? fuel depth next = some (more, rest)) := by
  rw [items?] at h
  split at h
  · cases h
  · rename_i item after hread
    split at h
    · cases h
      exact ⟨item, after, [], hread, rfl, .inl rfl⟩
    · obtain ⟨r, hmore, heq⟩ := Option.map_eq_some_iff.1 h
      cases heq
      exact ⟨item, after, r.1, hread, rfl, .inr ⟨_, hmore⟩⟩
    · cases h

/-- What the reader does behind a field. -/
def fieldsAfter? (fuel depth : Nat) (fields : List (String × Json)) (text : List Char) :
    Option (List (String × Json) × List Char) :=
  match skipBlanks text with
  | '\x7d' :: rest => some (fields, rest)
  | ',' :: rest => fields? fuel depth fields (skipBlanks rest)
  | _ => none

/-- Fields are read one after the other as well. -/
theorem fields?_cases {before fields : List (String × Json)}
    (h : fields? (fuel + 1) depth before text = some (fields, rest)) :
    ∃ name value written after, value? fuel depth written = some (value, after)
      ∧ fieldsAfter? fuel depth (Table.put name value before) after = some (fields, rest) := by
  unfold fields? at h
  split at h
  · cases h
  · obtain rfl := Nat.succ.inj ‹fuel + 1 = Nat.succ _›
    split at h
    · cases h
    · split at h
      · split at h
        · cases h
        · rename_i value after hread
          exact ⟨_, value, _, after, hread, h⟩
      · cases h
  · cases h

end

/-- **What the reader gives is within its depth,** be it a document, the items of an array or the
fields of an object from one of them on. -/
theorem within_of_read (fuel : Nat) :
    (∀ {depth text d rest}, value? fuel depth text = some (d, rest) → Within depth d)
      ∧ (∀ {depth text items rest}, items? fuel depth text = some (items, rest) →
          ∀ item ∈ items, Within depth item)
      ∧ (∀ {depth before text fields rest}, (Table.keys before).Nodup →
          (∀ f ∈ before, Within depth f.2) →
          fields? fuel depth before text = some (fields, rest) →
          (Table.keys fields).Nodup ∧ ∀ f ∈ fields, Within depth f.2) := by
  induction fuel with
  | zero => exact ⟨nofun, nofun, nofun⟩
  | succ fuel ih =>
    obtain ⟨hvalue, hitems, hfields⟩ := ih
    refine ⟨fun h => within_of_value? hitems (hfields List.nodup_nil nofun) h, fun h => ?_,
      fun hnames hbefore h => ?_⟩
    · obtain ⟨item, after, more, hread, rfl, hmore⟩ := items?_cases h
      refine List.forall_mem_cons.2 ⟨hvalue hread, ?_⟩
      rcases hmore with rfl | ⟨next, hnext⟩
      · exact nofun
      · exact hitems hnext
    · obtain ⟨name, value, written, after, hread, hafter⟩ := fields?_cases h
      have hdistinct : (Table.keys (Table.put name value _)).Nodup := Table.keys_put_nodup hnames
      have hwithin : ∀ f ∈ Table.put name value _, Within _ f.2 := fun f hf => by
        rcases Table.mem_put hf with rfl | hold
        · exact hvalue hread
        · exact hbefore f hold
      unfold fieldsAfter? at hafter
      split at hafter
      · cases hafter
        exact ⟨hdistinct, hwithin⟩
      · exact hfields hdistinct hwithin hafter
      · cases hafter

/-! ## Documents as they are read back -/

/-- A number as it is read back. -/
def Numeral.reread (n : Numeral) : Numeral := ((numeral? n.chars).map (·.1)).getD n

mutual

/-- **A document as it is read back:** every number in it is. -/
def reread : Json → Json
  | .number n => .number n.reread
  | .array items => .array (rereadItems items)
  | .object fields => .object (rereadFields fields)
  | d => d

def rereadItems : List Json → List Json
  | [] => []
  | item :: rest => reread item :: rereadItems rest

def rereadFields : List (String × Json) → List (String × Json)
  | [] => []
  | (name, value) :: rest => (name, reread value) :: rereadFields rest

end

/-- Items are read again one by one. -/
theorem rereadItems_eq (items : List Json) : rereadItems items = items.map reread := by
  induction items with
  | nil => rfl
  | cons item rest ih => rw [rereadItems, ih, List.map_cons]

theorem rereadFields_eq (fields : List (String × Json)) :
    rereadFields fields = fields.map fun f => (f.1, f.2.reread) := by
  induction fields with
  | nil => rfl
  | cons f rest ih => rw [rereadFields, ih, List.map_cons]

/-! ## Tokens -/

/-- **A number of the format is read again,** up to the reals. -/
theorem numeral?_chars {n : Numeral} (h : n.Fits) {rest : List Char} (hrest : Delimited rest) :
    numeral? (n.chars ++ rest) = some (n.reread, rest) := by
  obtain ⟨read, hread⟩ := exists_numeral? h
  have halone := hread [] delimited_nil
  rw [List.append_nil] at halone
  rw [hread rest hrest, Numeral.reread, halone]
  rfl

/-- A number begins with a minus sign or a digit. -/
theorem head_of_numeral? {text rest : List Char} {n : Numeral}
    (h : numeral? text = some (n, rest)) :
    ∃ c more, text = c :: more ∧ (c = '-' ∨ c.isDigit = true) := by
  cases text with
  | nil => cases h
  | cons c more =>
    refine ⟨c, more, rfl, ?_⟩
    by_contra hother
    obtain ⟨hminus, hdigit⟩ := not_or.1 hother
    have hspan : spanDigits (c :: more) = ([], c :: more) :=
      @spanDigits_append [] (c :: more) nofun (by rintro _ ⟨⟩; exact Bool.not_eq_true _ ▸ hdigit)
    rw [numeral?] at h
    · rw [unsignedNumeral?, hspan] at h
      cases h
    · exact fun _ heq => hminus (List.cons.inj heq).1

section

variable {fuel depth : Nat} {text rest : List Char} {d : Json}

theorem value?_of_numeral? {n : Numeral} (h : numeral? text = some (n, rest)) :
    value? (fuel + 1) depth text = some (.number n, rest) := by
  obtain ⟨c, more, rfl, hc⟩ := head_of_numeral? h
  have hne : ∀ other : Char, ¬(other = '-' ∨ other.isDigit = true) →
      ∀ tail, c :: more = other :: tail → False :=
    fun other hother tail heq => hother ((List.cons.inj heq).1 ▸ hc)
  rw [value?, h]
  · rfl
  · exact nofun
  · exact hne _ (by decide)
  · exact hne _ (by decide)
  · exact hne _ (by decide)
  · exact hne _ (by decide)
  · exact fun _ tail _ => hne _ (by decide) tail
  · exact fun _ tail _ => hne _ (by decide) tail

/-- No document begins with a blank or with a closing bracket. -/
theorem head_of_value? (h : value? fuel depth text = some (d, rest)) :
    ∃ c more, text = c :: more ∧ isBlank c = false ∧ c ≠ ']' := by
  cases fuel with
  | zero => cases h
  | succ fuel =>
    unfold value? at h
    split at h
    · cases h
    · cases h
    · exact ⟨_, _, rfl, rfl, by decide⟩
    · exact ⟨_, _, rfl, rfl, by decide⟩
    · exact ⟨_, _, rfl, rfl, by decide⟩
    · exact ⟨_, _, rfl, rfl, by decide⟩
    · exact ⟨_, _, rfl, rfl, by decide⟩
    · exact ⟨_, _, rfl, rfl, by decide⟩
    · obtain ⟨r, hread, -⟩ := Option.map_eq_some_iff.1 h
      obtain ⟨c, more, rfl, hc⟩ := head_of_numeral? hread
      refine ⟨c, more, rfl, ?_, ?_⟩
      · refine Bool.eq_false_iff.2 fun hblank => ?_
        simp only [isBlank, Bool.or_eq_true, beq_iff_eq] at hblank
        rcases hblank with ((rfl | rfl) | rfl) | rfl <;> exact absurd hc (by decide)
      · rintro rfl
        exact absurd hc (by decide)

/-- A value does not begin with a blank. -/
theorem skipBlanks_of_value? (h : value? fuel depth text = some (d, rest)) :
    skipBlanks text = text := by
  obtain ⟨c, more, rfl, hblank, -⟩ := head_of_value? h
  rw [skipBlanks, List.dropWhile_cons_of_neg (by rw [hblank]; exact Bool.false_ne_true)]

end

/-! ## Reading back -/

section

variable {fuel depth : Nat} {text after rest : List Char}

/-- What the reader does behind an item. -/
def itemsAfter? (fuel depth : Nat) (item : Json) (text : List Char) :
    Option (List Json × List Char) :=
  match skipBlanks text with
  | ']' :: rest => some ([item], rest)
  | ',' :: rest => (items? fuel depth (skipBlanks rest)).map fun r => (item :: r.1, r.2)
  | _ => none

/-- Items are read one after another. -/
theorem items?_succ {item : Json} (h : value? fuel depth text = some (item, after)) :
    items? (fuel + 1) depth text = itemsAfter? fuel depth item after := by
  rw [items?, h]
  rfl

/-- Behind a comma comes the next item. -/
theorem itemsAfter?_comma (item : Json) :
    itemsAfter? fuel depth item (',' :: text)
      = (items? fuel depth (skipBlanks text)).map fun r => (item :: r.1, r.2) := rfl

theorem fieldsAfter?_comma (before : List (String × Json)) :
    fieldsAfter? fuel depth before (',' :: text) = fields? fuel depth before (skipBlanks text) :=
  rfl

/-- A name, a colon and a value are a field. -/
theorem fields?_succ (before : List (String × Json)) (name : String) {value : Json}
    (h : value? fuel depth text = some (value, after)) :
    fields? (fuel + 1) depth before (stringChars name ++ ':' :: text)
      = fieldsAfter? fuel depth (Table.put name value before) after := by
  obtain ⟨body, hchars, hbody⟩ := string?_stringChars name (':' :: text)
  have hcolon : skipBlanks (':' :: text) = ':' :: text := rfl
  rw [hchars, fields?, hbody]
  simp only [hcolon, skipBlanks_of_value? h, h]
  rfl

/-- A bracket opens an array, whose first item is read a level further down. -/
theorem value?_array {item : Json} (h : value? fuel depth text = some (item, after)) :
    value? (fuel + 1 + 1) (depth + 1) ('[' :: text)
      = (itemsAfter? fuel depth item after).map fun r => (.array r.1, r.2) := by
  have hread := items?_succ h
  obtain ⟨c, more, rfl, -, hbracket⟩ := head_of_value? h
  rw [value?, skipBlanks_of_value? h]
  split
  · rename_i heq
    exact absurd (List.cons.inj heq).1 hbracket
  · rw [hread]

/-- A brace opens an object, whose first value is read a level further down. -/
theorem value?_object (name : String) {value : Json}
    (h : value? fuel depth text = some (value, after)) :
    value? (fuel + 1 + 1) (depth + 1) ('\x7b' :: (stringChars name ++ ':' :: text))
      = (fieldsAfter? fuel depth [(name, value)] after).map fun r => (.object r.1, r.2) := by
  have hread := fields?_succ [] name h
  obtain ⟨body, hchars, -⟩ := string?_stringChars name (':' :: text)
  have hquote : skipBlanks ('"' :: body) = '"' :: body := rfl
  rw [hchars] at hread ⊢
  rw [value?, hquote]
  split
  · rename_i heq
    exact absurd (List.cons.inj heq).1 (by decide)
  · rw [hread]
    rfl

end

/-- No number goes on behind an item. -/
theorem delimited_itemsTail (items : List Json) (rest : List Char) :
    Delimited (itemsTail items ++ rest) := by
  cases items with
  | nil => rintro _ ⟨⟩; exact .inr (.inl rfl)
  | cons item items => rintro _ ⟨⟩; exact .inl rfl

theorem delimited_fieldsTail (fields : List (String × Json)) (rest : List Char) :
    Delimited (fieldsTail fields ++ rest) := by
  cases fields with
  | nil => rintro _ ⟨⟩; exact .inr (.inr rfl)
  | cons f fields => rintro _ ⟨⟩; exact .inl rfl

mutual

/-- **A document is read from its text,** with two steps for each character. -/
theorem value?_chars : (d : Json) → (depth fuel : Nat) → {rest : List Char} → Within depth d →
    2 * d.chars.length ≤ fuel → Delimited rest →
      value? fuel depth (d.chars ++ rest) = some (d.reread, rest)
  | .null, depth, fuel + 1, rest, _, _, _ => rfl
  | .bool true, depth, fuel + 1, rest, _, _, _ => rfl
  | .bool false, depth, fuel + 1, rest, _, _, _ => rfl
  | .number n, depth, 0, rest, .number _ _ hfits, hfuel, _ => by
    obtain ⟨c, more, heq, -⟩ := head_of_numeral? (numeral?_chars hfits delimited_nil)
    rw [List.append_nil] at heq
    rw [chars, heq] at hfuel
    exact absurd hfuel (by simp)
  | .number n, depth, fuel + 1, rest, .number _ _ hfits, _, hrest =>
    value?_of_numeral? (numeral?_chars hfits hrest)
  | .string s, depth, fuel + 1, rest, _, _, _ => by
    obtain ⟨body, hchars, hbody⟩ := string?_stringChars s rest
    rw [chars, hchars, value?, hbody]
    rfl
  | .array [], depth + 1, fuel + 1, rest, _, _, _ => rfl
  | .array (item :: items), depth + 1, fuel + 1 + 1, rest, .array _ _ hitems, hfuel, _ => by
    obtain ⟨hitem, hmore⟩ := List.forall_mem_cons.1 hitems
    rw [chars, List.length_append, List.length_cons] at hfuel
    have hread := value?_chars item depth fuel hitem (by omega) (delimited_itemsTail items rest)
    have htail := itemsAfter?_itemsTail items item.reread depth fuel hmore (by omega) rest
    rw [chars, List.append_assoc, List.cons_append, value?_array hread, htail]
    rfl
  | .object [], depth + 1, fuel + 1, rest, _, _, _ => rfl
  | .object ((name, value) :: fields), depth + 1, fuel + 1 + 1, rest, .object _ _ hnames hfields,
      hfuel, _ => by
    obtain ⟨hvalue, hmore⟩ := List.forall_mem_cons.1 hfields
    simp only [chars, List.length_append, List.length_cons] at hfuel
    have hread := value?_chars value depth fuel hvalue (by omega) (delimited_fieldsTail fields rest)
    have htail :=
      fieldsAfter?_fieldsTail fields [(name, value.reread)] depth fuel hnames hmore (by omega) rest
    simp only [chars, List.append_assoc, List.cons_append]
    rw [value?_object name hread, htail]
    rfl

/-- The items behind one that is read already. -/
theorem itemsAfter?_itemsTail : (items : List Json) → (item : Json) → (depth fuel : Nat) →
    (∀ i ∈ items, Within depth i) → 2 * (itemsTail items).length ≤ fuel → (rest : List Char) →
    itemsAfter? fuel depth item (itemsTail items ++ rest) = some (item :: rereadItems items, rest)
  | [], item, depth, fuel, _, _, rest => rfl
  | next :: items, item, depth, fuel + 1, hitems, hfuel, rest => by
    obtain ⟨hnext, hmore⟩ := List.forall_mem_cons.1 hitems
    rw [itemsTail, List.length_append, List.length_cons] at hfuel
    have hread := value?_chars next depth fuel hnext (by omega) (delimited_itemsTail items rest)
    have htail := itemsAfter?_itemsTail items next.reread depth fuel hmore (by omega) rest
    rw [itemsTail, List.append_assoc, List.cons_append, itemsAfter?_comma,
      skipBlanks_of_value? hread, items?_succ hread, htail]
    rfl

/-- The fields behind some that are read already, if their names are others. -/
theorem fieldsAfter?_fieldsTail : (fields before : List (String × Json)) → (depth fuel : Nat) →
    (Table.keys before ++ Table.keys fields).Nodup → (∀ f ∈ fields, Within depth f.2) →
    2 * (fieldsTail fields).length ≤ fuel → (rest : List Char) →
    fieldsAfter? fuel depth before (fieldsTail fields ++ rest)
      = some (before ++ rereadFields fields, rest)
  | [], before, depth, fuel, _, _, _, rest => by
    rw [rereadFields, List.append_nil]
    rfl
  | (name, value) :: fields, before, depth, fuel + 1, hnames, hfields, hfuel, rest => by
    obtain ⟨hvalue, hmore⟩ := List.forall_mem_cons.1 hfields
    simp only [fieldsTail, List.length_append, List.length_cons] at hfuel
    have hread := value?_chars value depth fuel hvalue (by omega) (delimited_fieldsTail fields rest)
    -- the name is none of those before, so its field comes to stand behind them
    have hnew : name ∉ Table.keys before := fun hmem =>
      List.disjoint_of_nodup_append hnames hmem List.mem_cons_self
    have hkeys : Table.keys (before ++ [(name, value.reread)]) ++ Table.keys fields
        = Table.keys before ++ Table.keys ((name, value) :: fields) := by
      rw [Table.keys, List.map_append, List.append_assoc]
      rfl
    have htail :=
      fieldsAfter?_fieldsTail fields (before ++ [(name, value.reread)]) depth fuel
        (hkeys ▸ hnames) hmore (by omega) rest
    have hquote : skipBlanks
        (stringChars name ++ ':' :: (value.chars ++ (fieldsTail fields ++ rest)))
        = stringChars name ++ ':' :: (value.chars ++ (fieldsTail fields ++ rest)) := rfl
    simp only [fieldsTail, List.append_assoc, List.cons_append]
    rw [fieldsAfter?_comma, hquote, fields?_succ before name hread, Table.put_of_notMem hnew, htail,
      List.append_assoc]
    rfl

end

/-! ## Whole texts -/

/-- The document of a text, for a reader that goes down to another depth. -/
def parseWithin? (depth : Nat) (text : List Char) : Option Json :=
  match value? (2 * text.length + 2) depth (skipBlanks text) with
  | none => none
  | some (document, after) => if (skipBlanks after).isEmpty then some document else none

theorem parse?_eq_parseWithin? (text : List Char) : parse? text = parseWithin? maxDepth text := rfl

/-- **A document is read from its text** by any reader that goes down as deep. -/
theorem parseWithin?_chars {depth : Nat} {d : Json} (h : Within depth d) :
    parseWithin? depth d.chars = some d.reread := by
  have hread := value?_chars d depth (2 * d.chars.length + 2) h (Nat.le_add_right _ _) delimited_nil
  rw [List.append_nil] at hread
  rw [parseWithin?, skipBlanks_of_value? hread, hread]
  rfl

/-- **A document that is written on one line is read again,** up to its reals. -/
theorem ofString?_render {d : Json} (h : Within maxDepth d) :
    ofString? d.render = some d.reread := by
  rw [ofString?, parse?_eq_parseWithin?, render, String.toList_ofList, parseWithin?_chars h]

/-- A document is read from text as from its bytes. -/
theorem ofBytes?_ofString (s : String) : ofBytes? (Bytes.ofString s) = ofString? s := by
  rw [ofBytes?, Bytes.toString?_ofString, Option.bind_some]

/-- **A body that is a document** is one that the reader can give. -/
theorem within_of_ofBytes? {b : Bytes} {d : Json} (h : ofBytes? b = some d) :
    Within maxDepth d := by
  obtain ⟨s, -, hs⟩ := Option.bind_eq_some_iff.1 h
  rw [ofString?, parse?] at hs
  split at hs
  · cases hs
  · rename_i document after hread
    split at hs
    · cases hs
      exact (within_of_read _).1 hread
    · cases hs

/-! ## Numbers that are read back as they were -/

mutual

/-- The numbers of a document. -/
def numerals : Json → List Numeral
  | .number n => [n]
  | .array items => numeralsOfItems items
  | .object fields => numeralsOfFields fields
  | _ => []

def numeralsOfItems : List Json → List Numeral
  | [] => []
  | item :: rest => numerals item ++ numeralsOfItems rest

def numeralsOfFields : List (String × Json) → List Numeral
  | [] => []
  | (_, value) :: rest => numerals value ++ numeralsOfFields rest

end

theorem numeralsOfItems_eq (items : List Json) :
    numeralsOfItems items = items.flatMap numerals := by
  induction items with
  | nil => rfl
  | cons item rest ih => rw [numeralsOfItems, ih, List.flatMap_cons]

theorem numeralsOfFields_eq (fields : List (String × Json)) :
    numeralsOfFields fields = fields.flatMap fun f => numerals f.2 := by
  induction fields with
  | nil => rfl
  | cons f rest ih => rw [numeralsOfFields, ih, List.flatMap_cons]

/-- **The reals of a document are read as they were.** Integers always are. -/
def RealsKept (d : Json) : Prop :=
  ∀ negative mantissa exponent, Numeral.real negative mantissa exponent ∈ d.numerals →
    numeral? (Numeral.real negative mantissa exponent).chars
      = some (.real negative mantissa exponent, [])

theorem RealsKept.of_forall {d : Json} (h : ∀ n ∈ d.numerals, numeral? n.chars = some (n, [])) :
    d.RealsKept :=
  fun _ _ _ hmem => h _ hmem

/-- A number whose text is read as that number is read again as it was. -/
theorem reread_numeral {n : Numeral} (hfits : n.Fits)
    (hreals : ∀ negative mantissa exponent, n = .real negative mantissa exponent →
      numeral? n.chars = some (n, [])) :
    n.reread = n := by
  have hread : numeral? n.chars = some (n, []) := by
    cases n with
    | integer value =>
      have hinteger := numeral?_integer hfits delimited_nil
      rwa [List.append_nil] at hinteger
    | real negative mantissa exponent => exact hreals _ _ _ rfl
  rw [Numeral.reread, hread]
  rfl

/-- Then it is read back as it was. -/
theorem reread_eq_self {depth : Nat} {d : Json} (h : Within depth d) (hreals : d.RealsKept) :
    d.reread = d := by
  induction h with
  | null => rfl
  | bool => rfl
  | string => rfl
  | number _ n hfits =>
    refine congrArg Json.number (reread_numeral hfits fun negative mantissa exponent heq => ?_)
    rw [heq]
    exact hreals _ _ _ (heq ▸ List.mem_singleton_self n)
  | array _ items _ ih =>
    have hitem : ∀ item ∈ items, item.reread = item := fun item hmem =>
      ih item hmem fun negative mantissa exponent hn => hreals negative mantissa exponent <| by
        rw [numerals, numeralsOfItems_eq]
        exact List.mem_flatMap_of_mem hmem hn
    rw [reread, rereadItems_eq, List.map_congr_left hitem, List.map_id']
  | object _ fields _ _ ih =>
    have hfield : ∀ f ∈ fields, (f.1, f.2.reread) = f := fun f hmem => by
      rw [ih f hmem fun negative mantissa exponent hn => hreals negative mantissa exponent <| by
        rw [numerals, numeralsOfFields_eq]
        exact List.mem_flatMap_of_mem hmem hn]
    rw [reread, rereadFields_eq, List.map_congr_left hfield, List.map_id']

end Gatehouse.Json
