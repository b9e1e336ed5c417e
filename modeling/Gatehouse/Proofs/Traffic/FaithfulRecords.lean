/-
Records cannot be forged, and they lose no header.

A record on one line has no byte below a space, whatever stands in a target, in a header, in a
request id or in a body, so it is one line. It is read back as an object (`record_read`): the reader
must go down one level further than it goes for bodies, as a body is one level down in its record.
In that object the target is the target, and the headers are grouped by name, each name at its first
place with all of its values in order; the pairs can be told from that up to this grouping
(`perm_ungroup`, `filter_ungroup`).
-/
import Gatehouse.Proofs.Json.ReadBack
import Gatehouse.Proofs.Traffic.WrittenRecords

set_option autoImplicit false

namespace Gatehouse.Traffic

open Gatehouse.Http

/-! ## Headers by name -/

/-- The values of a header, in order. -/
def valuesOf (name : String) (headers : List (String × String)) : List String :=
  (headers.filter fun h => h.1 = name).map (·.2)

/-- **Headers by name:** each distinct name at its first place, with the list of all its
values in order. -/
def byName (headers : List (String × String)) : Table (List String) :=
  (headers.map (·.1)).eraseDups.map fun name => (name, valuesOf name headers)

/-- The pairs that grouped headers stand for. -/
def ungroup (groups : Table (List String)) : List (String × String) :=
  groups.flatMap fun group => group.2.map (group.1, ·)

/-- A name at the end stays if it has not come before. -/
theorem eraseDups_concat (names : List String) (name : String) :
    (names ++ [name]).eraseDups
      = if name ∈ names then names.eraseDups else names.eraseDups ++ [name] := by
  rw [List.eraseDups_append]
  split
  · rename_i hmem
    have hnone : List.removeAll [name] names = [] := by simp [List.removeAll, hmem]
    rw [hnone]
    exact List.append_nil _
  · rename_i hnew
    have hone : List.removeAll [name] names = [name] := by simp [List.removeAll, hnew]
    rw [hone]
    rfl

theorem nodup_eraseDups (names : List String) : names.eraseDups.Nodup := by
  induction names using List.reverseRecOn with
  | nil => exact List.nodup_nil
  | append_singleton names name ih =>
    rw [eraseDups_concat]
    split
    · exact ih
    · rename_i hnew
      exact ih.append (List.nodup_singleton name)
        (List.disjoint_singleton.2 (mt List.mem_eraseDups.1 hnew))

/-- One more header is one more value of its name. -/
theorem valuesOf_concat (name : String) (headers : List (String × String)) (h : String × String) :
    valuesOf name (headers ++ [h])
      = if name = h.1 then valuesOf h.1 headers ++ [h.2] else valuesOf name headers := by
  rw [valuesOf, List.filter_append, List.map_append]
  split
  · rename_i heq
    subst heq
    simp [valuesOf]
  · rename_i hne
    simp [valuesOf, Ne.symm hne]

theorem valuesOf_of_notMem {name : String} {headers : List (String × String)}
    (h : name ∉ headers.map (·.1)) :
    valuesOf name headers = [] := by
  rw [valuesOf, List.map_eq_nil_iff, List.filter_eq_nil_iff]
  intro header hheader hsame
  exact h (of_decide_eq_true hsame ▸ List.mem_map_of_mem hheader)

/-- Each name is there once, where it came first. -/
theorem keys_byName (headers : List (String × String)) :
    Table.keys (byName headers) = (headers.map (·.1)).eraseDups := by
  rw [byName, Table.keys, List.map_map]
  exact List.map_id' _

/-- One more header goes to the values of its name, or behind all others. -/
theorem byName_concat (headers : List (String × String)) (h : String × String) :
    byName (headers ++ [h])
      = Table.put h.1 ((List.lookup h.1 (byName headers)).getD [] ++ [h.2]) (byName headers) := by
  by_cases hmem : h.1 ∈ headers.map (·.1)
  · have hkey : h.1 ∈ (headers.map (·.1)).eraseDups := List.mem_eraseDups.2 hmem
    rw [byName, byName, Table.lookup_map_of_mem _ hkey, Table.put_map (nodup_eraseDups _) _ hkey,
      Option.getD_some, List.map_append, List.map_cons, List.map_nil, eraseDups_concat, if_pos hmem]
    exact List.map_congr_left fun name _ => by rw [valuesOf_concat]
  · have hnew : h.1 ∉ Table.keys (byName headers) := by rwa [keys_byName, List.mem_eraseDups]
    have hothers : ∀ name ∈ (headers.map (·.1)).eraseDups,
        (name, valuesOf name (headers ++ [h]))
          = (name, valuesOf name headers) := fun name hname => by
      rw [valuesOf_concat, if_neg fun heq : name = h.1 => hmem (heq ▸ List.mem_eraseDups.1 hname)]
    rw [Table.lookup_eq_none_of_notMem hnew, Table.put_of_notMem hnew, byName, byName,
      List.map_append, List.map_cons, List.map_nil, eraseDups_concat, if_neg hmem, List.map_append,
      List.map_congr_left hothers, List.map_cons, List.map_nil, valuesOf_concat, if_pos rfl,
      valuesOf_of_notMem hmem]
    rfl

/-- **The headers in a record are the headers by name.** -/
theorem groupByName_eq (headers : List (String × String)) :
    Exchange.groupByName headers = byName headers := by
  induction headers using List.reverseRecOn with
  | nil => rfl
  | append_singleton headers h ih =>
    rw [byName_concat, ← ih, Exchange.groupByName, List.foldl_append]
    rfl

/-! ## The pairs behind the groups -/

theorem ungroup_byName (headers : List (String × String)) :
    ungroup (byName headers)
      = (headers.map (·.1)).eraseDups.flatMap fun name => headers.filter fun h => h.1 = name := by
  rw [ungroup, byName, List.flatMap_map]
  refine List.flatMap_congr fun name _ => ?_
  rw [valuesOf, List.map_map]
  refine (List.map_congr_left fun h hmem => ?_).trans (List.map_id' _)
  rw [Function.comp_apply, ← of_decide_eq_true (List.mem_filter.1 hmem).2]

/-- A group of distinct ones is found once. -/
theorem flatMap_ite {α : Type} {names : List String} (hnames : names.Nodup) (name : String)
    (group : List α) :
    (names.flatMap fun other => if other = name then group else [])
      = if name ∈ names then group else [] := by
  induction names with
  | nil => rfl
  | cons first rest ih =>
    obtain ⟨hfirst, hrest⟩ := List.nodup_cons.1 hnames
    rw [List.flatMap_cons, ih hrest]
    by_cases heq : first = name
    · subst heq
      rw [if_pos rfl, if_neg hfirst, if_pos List.mem_cons_self, List.append_nil]
    · rw [if_neg heq, List.nil_append]
      exact if_congr (by rw [List.mem_cons, or_iff_right (Ne.symm heq)]) rfl rfl

/-- **Each name has its pairs in their order.** -/
theorem filter_ungroup (headers : List (String × String)) (name : String) :
    (ungroup (byName headers)).filter (fun h => h.1 = name)
      = headers.filter fun h => h.1 = name := by
  have hgroup : ∀ other, (headers.filter fun h => h.1 = other).filter (fun h => h.1 = name)
      = if other = name then headers.filter (fun h => h.1 = name) else [] := by
    intro other
    rw [List.filter_filter]
    split
    · rename_i heq
      subst heq
      simp
    · rename_i hne
      rw [List.filter_eq_nil_iff]
      intro h _ hboth
      obtain ⟨hname, hother⟩ := Bool.and_eq_true_iff.1 hboth
      exact hne ((of_decide_eq_true hother).symm.trans (of_decide_eq_true hname))
  rw [ungroup_byName, List.filter_flatMap, funext hgroup, flatMap_ite (nodup_eraseDups _)]
  split
  · rfl
  · rename_i hnone
    rw [eq_comm, List.filter_eq_nil_iff]
    intro h hmem hname
    exact hnone (List.mem_eraseDups.2 (of_decide_eq_true hname ▸ List.mem_map_of_mem hmem))

/-- **The pairs are the same,** but for their grouping. -/
theorem perm_ungroup (headers : List (String × String)) :
    List.Perm (ungroup (byName headers)) headers := by
  refine List.perm_iff_count.2 fun h => ?_
  have hcount (l : List (String × String)) :
      List.count h (l.filter fun other => other.1 = h.1) = List.count h l :=
    List.count_filter (p := fun other : String × String => decide (other.1 = h.1))
      (decide_eq_true rfl)
  rw [← hcount (ungroup (byName headers)), filter_ungroup, hcount]

/-! ## Records as documents -/

namespace Exchange

/-- Fields whose names are some of certain ones, in their order, with values that the
reader can give. -/
structure FieldsAmong (names : List String) (fields : List (String × Json)) : Prop where
  keys : (Table.keys fields).Sublist names
  within : ∀ f ∈ fields, Json.Within Json.maxDepth f.2

namespace FieldsAmong

theorem nil (names : List String) : FieldsAmong names [] := ⟨List.nil_sublist _, nofun⟩

theorem single (name : String) {value : Json} (h : Json.Within Json.maxDepth value) :
    FieldsAmong [name] [(name, value)] :=
  ⟨List.Sublist.refl _, List.forall_mem_singleton.2 h⟩

theorem append {first second : List String} {before after : List (String × Json)}
    (hbefore : FieldsAmong first before) (hafter : FieldsAmong second after) :
    FieldsAmong (first ++ second) (before ++ after) where
  keys := by
    rw [Table.keys, List.map_append]
    exact hbefore.keys.append hafter.keys
  within f hf := (List.mem_append.1 hf).elim (hbefore.within f) (hafter.within f)

theorem optionalField (name : String) {value : Option Json}
    (h : ∀ v ∈ value, Json.Within Json.maxDepth v) :
    FieldsAmong [name] (Exchange.optionalField name value) := by
  cases value with
  | none => exact .nil _
  | some value => exact .single name (h value rfl)

theorem ite (p : Prop) [Decidable p] {names : List String} {fields : List (String × Json)}
    (h : FieldsAmong names fields) : FieldsAmong names (if p then fields else []) := by
  split
  · exact h
  · exact .nil _

end FieldsAmong

theorem within_string (s : String) : Json.Within Json.maxDepth (.string s) := .string _ s

/-- The headers of a record are an object of lists of strings. -/
theorem within_headers (headers : List (String × String)) :
    Json.Within Json.maxDepth
      (.object ((groupByName headers).map fun g => (g.1, .array (g.2.map .string)))) := by
  have hobject : Json.Within 2
      (.object ((groupByName headers).map fun g => (g.1, .array (g.2.map .string)))) := by
    refine .object 1 _ ?_ fun f hf => ?_
    · have hkeys : Table.keys
          ((groupByName headers).map fun g => (g.1, Json.array (g.2.map .string)))
          = (headers.map (·.1)).eraseDups := by
        rw [groupByName_eq, ← keys_byName, Table.keys, List.map_map]
        rfl
      rw [hkeys]
      exact nodup_eraseDups _
    · obtain ⟨g, -, rfl⟩ := List.mem_map.1 hf
      refine .array 0 _ fun item hitem => ?_
      obtain ⟨s, -, rfl⟩ := List.mem_map.1 hitem
      exact .string 0 s
  exact hobject.mono (by decide)

/-- A body is in a record as a document or as a string, and the reader goes one level further for
it. -/
theorem within_bodyValue (body : Bytes) : Json.Within Json.maxDepth (bodyValue body) := by
  rw [bodyValue]
  cases hbody : Json.ofBytes? body with
  | none => exact .string _ _
  | some document => exact Json.within_of_ofBytes? hbody

/-- The fields of a record. -/
def recordFields (e : Exchange) (includeHeaders includeBody : Bool) : List (String × Json) :=
  [("source", .string e.origin.label), ("type", .string e.side.label),
      ("method", .string e.method.token), ("uri", .string e.uri)]
    ++ optionalField "host" (e.host?.map .string)
    ++ [("path", .string e.path)]
    ++ e.responseFields
    ++ (if includeHeaders then
        [("headers",
          .object ((groupByName e.headers).map fun g => (g.1, .array (g.2.map .string))))]
      else [])
    ++ (if includeBody then
        (if e.body.isEmpty then [] else [("body", bodyValue e.body)])
        ++ (if e.truncated then [("bodyTruncated", .bool true)] else [])
      else [])
    ++ optionalField "trace" (e.requestId.map fun id => .object [("requestId", .string id)])

theorem toJson_eq_object (e : Exchange) (includeHeaders includeBody : Bool) :
    e.toJson includeHeaders includeBody = .object (e.recordFields includeHeaders includeBody) := rfl

theorem within_nat {n : Nat} (h : n < 2 ^ 16) : Json.Within Json.maxDepth (.nat n) := by
  refine .number _ _ ⟨by omega, ?_⟩
  rw [Json.maxSignificand]
  omega

theorem fieldsAmong_responseFields {e : Exchange} (hstatus : ∀ s ∈ e.status, s.code < 2 ^ 16) :
    FieldsAmong (["statusCode"] ++ ["duration"]) e.responseFields := by
  rw [responseFields]
  split
  · exact .nil _
  · refine .append (.optionalField _ fun v hv => ?_) (.optionalField _ fun v hv => ?_)
    · obtain ⟨s, hs, rfl⟩ := Option.mem_map.1 hv
      exact within_nat (hstatus s hs)
    · obtain ⟨t, -, rfl⟩ := Option.mem_map.1 hv
      exact within_string _

/-- **The fields of a record have distinct names,** and its reader can give each of their values. -/
theorem fieldsAmong_recordFields {e : Exchange} (hstatus : ∀ s ∈ e.status, s.code < 2 ^ 16)
    (includeHeaders includeBody : Bool) :
    FieldsAmong
      (["source", "type", "method", "uri"] ++ ["host"] ++ ["path"]
        ++ (["statusCode"] ++ ["duration"]) ++ ["headers"]
        ++ (["body"] ++ ["bodyTruncated"]) ++ ["trace"])
      (e.recordFields includeHeaders includeBody) := by
  have hfirst : FieldsAmong ["source", "type", "method", "uri"]
      [("source", .string e.origin.label), ("type", .string e.side.label),
        ("method", .string e.method.token), ("uri", .string e.uri)] :=
    ⟨List.Sublist.refl _, by simp [within_string]⟩
  have hhost : FieldsAmong ["host"] (Exchange.optionalField "host" (e.host?.map .string)) :=
    .optionalField _ fun v hv => by
      obtain ⟨s, -, rfl⟩ := Option.mem_map.1 hv
      exact within_string s
  have hbody : FieldsAmong ["body"]
      (if e.body.isEmpty then [] else [("body", bodyValue e.body)]) := by
    split
    · exact .nil _
    · exact .single _ (within_bodyValue _)
  have htrace : FieldsAmong ["trace"]
      (Exchange.optionalField "trace"
        (e.requestId.map fun id => .object [("requestId", .string id)])) :=
    .optionalField _ fun v hv => by
      obtain ⟨id, -, rfl⟩ := Option.mem_map.1 hv
      exact .object 126 _ (by simp [Table.keys]) (List.forall_mem_singleton.2 (.string _ id))
  exact (((((hfirst.append hhost).append (.single _ (within_string _))).append
    (fieldsAmong_responseFields hstatus)).append (.ite _ (.single _ (within_headers _)))).append
    (.ite _ (hbody.append (.ite _ (.single _ (.bool _ true)))))).append htrace

/-- **A record is one level deeper than its body** at most. -/
theorem within_toJson {e : Exchange} (hstatus : ∀ s ∈ e.status, s.code < 2 ^ 16)
    (includeHeaders includeBody : Bool) :
    Json.Within (Json.maxDepth + 1) (e.toJson includeHeaders includeBody) := by
  obtain ⟨hkeys, hwithin⟩ := fieldsAmong_recordFields hstatus includeHeaders includeBody
  exact .object _ _ (hkeys.nodup (by decide)) hwithin

/-! ## Reading a record -/

/-- Headers have no number that could be read as another. -/
theorem reread_headers (groups : Table (List String)) :
    (Json.object (groups.map fun g => (g.1, .array (g.2.map .string)))).reread
      = .object (groups.map fun g => (g.1, .array (g.2.map .string))) := by
  have hvalues : ∀ g : String × List String,
      (Json.array (g.2.map .string)).reread = .array (g.2.map .string) := by
    intro g
    rw [Json.reread, Json.rereadItems_eq, List.map_map]
    rfl
  rw [Json.reread, Json.rereadFields_eq, List.map_map]
  exact congrArg Json.object (List.map_congr_left fun g _ => congrArg (Prod.mk g.1) (hvalues g))

/-- No other field of a record is called as the headers are. -/
theorem lookup_recordFields {e : Exchange} (hstatus : ∀ s ∈ e.status, s.code < 2 ^ 16)
    (includeBody : Bool) :
    List.lookup "headers" (e.recordFields true includeBody)
      = some (.object ((byName e.headers).map fun g => (g.1, .array (g.2.map .string)))) := by
  have hnames := (fieldsAmong_recordFields hstatus true includeBody).keys.nodup (by decide)
  refine (Table.lookup_eq_some_iff_mem hnames).2 ?_
  rw [← groupByName_eq, recordFields]
  simp

/-- **Records cannot be forged, and they lose no header.** A record on one line has no control
character, whatever stands in its exchange. It is nested one level deeper than the reader goes for
bodies at most; and any reader that goes down as deep as the record is nested finds an object in it.
In that the target is the target of the exchange; and the headers, if they are there, are by name,
each distinct name at its first place with the list of all its values in order. So the pairs can be
told from it up to their grouping. -/
theorem record_read (e : Exchange) (hstatus : ∀ s ∈ e.status, s.code < 2 ^ 16)
    (includeHeaders includeBody : Bool) :
    (∀ b ∈ Bytes.ofString (e.record includeHeaders includeBody false), 0x20 ≤ b)
      ∧ (e.toJson includeHeaders includeBody).nesting ≤ Json.maxDepth + 1
      ∧ ∀ depth, (e.toJson includeHeaders includeBody).nesting ≤ depth → ∃ fields,
          Json.parseWithin? depth (e.record includeHeaders includeBody false).toList
            = some (.object fields)
          ∧ List.lookup "uri" fields = some (.string e.uri)
          ∧ (includeHeaders = true →
              List.lookup "headers" fields
                  = some (.object ((byName e.headers).map fun g => (g.1, .array (g.2.map .string))))
                ∧ List.Perm (ungroup (byName e.headers)) e.headers
                ∧ ∀ name, (ungroup (byName e.headers)).filter (fun h => h.1 = name)
                    = e.headers.filter fun h => h.1 = name) := by
  have hwithin := within_toJson hstatus includeHeaders includeBody
  refine ⟨Json.le_of_mem_ofString_render _, hwithin.nesting_le, fun depth hdepth => ?_⟩
  have hread := Json.parseWithin?_chars (hwithin.of_nesting_le hdepth)
  have hlookup (name : String) : List.lookup name
      (Json.rereadFields (e.recordFields includeHeaders includeBody))
      = (List.lookup name (e.recordFields includeHeaders includeBody)).map Json.reread := by
    rw [Json.rereadFields_eq, Table.lookup_map_values]
  refine ⟨Json.rereadFields (e.recordFields includeHeaders includeBody), ?_, ?_, ?_⟩
  · rw [record, if_neg Bool.false_ne_true, Json.render, String.toList_ofList, hread,
      toJson_eq_object, Json.reread]
  · rw [hlookup]
    rfl
  · rintro rfl
    rw [hlookup, lookup_recordFields hstatus, Option.map_some, reread_headers]
    exact ⟨rfl, perm_ungroup _, filter_ungroup _⟩

/-- An exchange that would like to look like another one. -/
def forging : Exchange where
  origin := .inbound
  side := .response
  method := .get
  uri := "/a\",\"uri\":\"/b\n\x7b\"uri\":\"/c"
  status := some ⟨200⟩
  headers := [("accept", "a"), ("x-id", "1\r\n\"headers\":\x7b\x7d"), ("accept", "b")]
  body := [0x0A, 0xFF]
  truncated := true
  elapsedMicros := some 1500
  requestId := some "\x00\x1f"

/-- It is one line, and it is read as what it is. -/
theorem record_read_forging :
    (∀ b ∈ Bytes.ofString (forging.record true true false), 0x20 ≤ b)
      ∧ ∃ fields, Json.ofString? (forging.record true true false) = some (.object fields)
        ∧ List.lookup "uri" fields = some (.string "/a\",\"uri\":\"/b\n\x7b\"uri\":\"/c")
        ∧ List.lookup "headers" fields = some (.object
            [("accept", .array [.string "a", .string "b"]),
              ("x-id", .array [.string "1\r\n\"headers\":\x7b\x7d"])]) := by
  have hstatus : ∀ s ∈ forging.status, s.code < 2 ^ 16 := by
    rintro s ⟨⟩
    decide
  obtain ⟨hbytes, -, hread⟩ := record_read forging hstatus true true
  obtain ⟨fields, hfields, huri, hheaders⟩ := hread Json.maxDepth (by decide +kernel)
  exact ⟨hbytes, fields, hfields, huri, (hheaders rfl).1⟩

end Exchange

end Gatehouse.Traffic
