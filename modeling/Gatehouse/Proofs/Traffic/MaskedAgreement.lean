/-
Records do not depend on masked values.

Two exchanges agree except for what is masked if they differ at most in the values of masked headers
and in how often such a header is repeated, in the values of masked query parameters, and, where a
body was copied whole and is a JSON document, in the values at positions that a configured path
addresses (`AgreeExceptMasked`). None of this is said in terms of the masker. The main statement is
that such exchanges have the same record.

Headers and targets are connected by single changes, and a change is one value. For the body see
`JsonPath.AgreeExcept.foldl_mask`.
-/
import Gatehouse.Proofs.Traffic.Addressing
import Gatehouse.Traffic.Recorder
import Mathlib

set_option autoImplicit false

namespace Gatehouse.Traffic

/-! ## What is masked -/

namespace MaskingSettings

def MasksHeader (s : MaskingSettings) (name : String) : Prop :=
  ∃ header ∈ s.headers, asciiLowercase header = asciiLowercase name

/-- The name of a query pair, as it is written, says a name in the list that is not empty. -/
def MasksParameter (s : MaskingSettings) (name : List Char) : Prop :=
  lowercase (FormEncoding.decode (String.ofList name)) ≠ ""
    ∧ ∃ parameter ∈ s.parameters,
      lowercase parameter = lowercase (FormEncoding.decode (String.ofList name))

/-- A configured path addresses a position of a document. -/
def MasksPosition (s : MaskingSettings) (d : Json) (position : List Nat) : Prop :=
  ∃ text ∈ s.jsonBodyFields, ∃ path, JsonPath.ofString? text = some path
    ∧ JsonPath.Addressed path.steps d position

end MaskingSettings

/-! ## Agreement -/

/-- **A change of a masked header:** another value, or a repetition after its first occurrence. -/
inductive HeaderChange (s : MaskingSettings) :
    List (String × String) → List (String × String) → Prop where
  | value (before after : List (String × String)) (name value other : String)
      (h : s.MasksHeader name) :
    HeaderChange s (before ++ (name, value) :: after) (before ++ (name, other) :: after)
  | repetition (before after : List (String × String)) (name value : String)
      (h : s.MasksHeader name)
      (hfirst : ∃ header ∈ before, asciiLowercase header.1 = asciiLowercase name) :
    HeaderChange s (before ++ after) (before ++ (name, value) :: after)

/-- A target with a query of some pairs. -/
def targetOf (path : List Char) (pairs : List (List Char)) (fragment : List Char) : String :=
  String.ofList (path ++ '?' :: List.intercalate ['&'] pairs ++ fragment)

/-- The parts of a target are where they are looked for. -/
structure IsTarget (path : List Char) (pairs : List (List Char)) (fragment : List Char) : Prop where
  path : ∀ c ∈ path, c ≠ '?' ∧ c ≠ '#'
  pairs : ∀ pair ∈ pairs, '&' ∉ pair ∧ '#' ∉ pair
  fragment : fragment = [] ∨ ∃ rest, fragment = '#' :: rest

/-- What follows the name of a query pair: nothing, or a value. -/
def IsValuePart (text : List Char) : Prop := text = [] ∨ ∃ value, text = '=' :: value

/-- **A change of a masked parameter:** another value, or none. -/
inductive TargetChange (s : MaskingSettings) : String → String → Prop where
  | value (path : List Char) (before after : List (List Char))
      (name value other fragment : List Char) (h : s.MasksParameter name) (hname : '=' ∉ name)
      (hvalue : IsValuePart value) (hother : IsValuePart other)
      (htarget : IsTarget path (before ++ (name ++ value) :: after) fragment)
      (hchanged : IsTarget path (before ++ (name ++ other) :: after) fragment) :
    TargetChange s (targetOf path (before ++ (name ++ value) :: after) fragment)
      (targetOf path (before ++ (name ++ other) :: after) fragment)

/-- Two bodies are the same, or both are documents that were copied whole and agree except at masked
positions. -/
inductive BodiesAgree (s : MaskingSettings) (truncated : Bool) (body : Bytes) : Bytes → Prop where
  | same : BodiesAgree s truncated body body
  | documents (other : Bytes) (d e : Json) (hwhole : truncated = false)
      (hbody : Json.ofBytes? body = some d) (hother : Json.ofBytes? other = some e)
      (hagree : JsonPath.AgreeExcept
        (fun position => s.MasksPosition d position ∧ s.MasksPosition e position) d e) :
    BodiesAgree s truncated body other

/-- **Two exchanges agree except for what is masked.** -/
structure AgreeExceptMasked (s : MaskingSettings) (e f : Exchange) : Prop where
  headers : Relation.EqvGen (HeaderChange s) e.headers f.headers
  uri : Relation.EqvGen (TargetChange s) e.uri f.uri
  body : BodiesAgree s e.truncated e.body f.body
  rest : { e with headers := [], uri := "", body := [] }
    = { f with headers := [], uri := "", body := [] }

namespace Masker

/-- What is the same for every single change is the same for all of them. -/
theorem eq_of_eqvGen {α β : Type} {r : α → α → Prop} {f : α → β}
    (hchange : ∀ a b, r a b → f a = f b) {a b : α} (h : Relation.EqvGen r a b) : f a = f b :=
  congrArg (Quot.lift f hchange) (Quot.eqvGen_sound h)

variable {m : Masker}

/-! ## Headers -/

theorem maskHeadersFrom_value {name : String} (h : m.headers.contains (asciiLowercase name) = true)
    (value other : String) (before after : List (String × String)) (seen : List String) :
    m.maskHeadersFrom seen (before ++ (name, value) :: after)
      = m.maskHeadersFrom seen (before ++ (name, other) :: after) := by
  induction before generalizing seen with
  | nil =>
    rw [List.nil_append, List.nil_append, maskHeadersFrom, maskHeadersFrom]
    simp only [h, if_true]
  | cons header before ih =>
    rw [List.cons_append, List.cons_append, maskHeadersFrom, maskHeadersFrom]
    simp only [ih]

/-- A masked header is left out where it has been seen before. -/
theorem maskHeadersFrom_repetition {name : String}
    (h : m.headers.contains (asciiLowercase name) = true) (value : String)
    (before after : List (String × String)) (seen : List String)
    (hfirst : asciiLowercase name ∈ seen
      ∨ ∃ header ∈ before, asciiLowercase header.1 = asciiLowercase name) :
    m.maskHeadersFrom seen (before ++ after)
      = m.maskHeadersFrom seen (before ++ (name, value) :: after) := by
  induction before generalizing seen with
  | nil =>
    have hseen : seen.contains (asciiLowercase name) = true := by
      rcases hfirst with hseen | ⟨header, hmem, -⟩
      · exact List.contains_iff_mem.2 hseen
      · exact absurd hmem List.not_mem_nil
    rw [List.nil_append, List.nil_append, maskHeadersFrom]
    simp only [h, hseen, if_true]
  | cons header before ih =>
    rw [List.cons_append, List.cons_append, maskHeadersFrom, maskHeadersFrom]
    have hwhere : asciiLowercase header.1 = asciiLowercase name
        ∨ asciiLowercase name ∈ seen
        ∨ ∃ found ∈ before, asciiLowercase found.1 = asciiLowercase name := by
      rcases hfirst with hseen | ⟨found, hmem, heq⟩
      · exact .inr (.inl hseen)
      · rcases List.mem_cons.1 hmem with rfl | hbefore
        · exact .inl heq
        · exact .inr (.inr ⟨found, hbefore, heq⟩)
    by_cases hmasked : m.headers.contains (asciiLowercase header.1) = true
    · by_cases hold : seen.contains (asciiLowercase header.1) = true
      · rw [if_pos hmasked, if_pos hmasked, if_pos hold, if_pos hold]
        refine ih seen (hwhere.elim (fun heq => .inl ?_) id)
        rw [← heq]
        exact List.contains_iff_mem.1 hold
      · rw [if_pos hmasked, if_pos hmasked, if_neg hold, if_neg hold]
        refine congrArg (List.cons _) (ih (asciiLowercase header.1 :: seen) ?_)
        exact hwhere.elim (fun heq => .inl (heq ▸ List.mem_cons_self))
          (Or.imp_left (List.mem_cons_of_mem _))
    · rw [if_neg hmasked, if_neg hmasked]
      refine congrArg (List.cons _) (ih seen (hwhere.elim (fun heq => ?_) id))
      rw [heq] at hmasked
      exact absurd h hmasked

theorem maskHeaders_of_change {s : MaskingSettings}
    (hheaders : m.headers = s.headers.map asciiLowercase) {headers others : List (String × String)}
    (h : HeaderChange s headers others) :
    m.maskHeaders headers = m.maskHeaders others := by
  have hcontains : ∀ name, s.MasksHeader name →
      m.headers.contains (asciiLowercase name) = true := by
    rintro name ⟨header, hmem, heq⟩
    rw [hheaders, List.contains_iff_mem, ← heq]
    exact List.mem_map_of_mem hmem
  cases h with
  | value before after name value other h =>
    exact maskHeadersFrom_value (hcontains name h) _ _ _ _ _
  | repetition before after name value h hfirst =>
    exact maskHeadersFrom_repetition (hcontains name h) _ _ _ _ (.inr hfirst)

/-! ## Targets -/

theorem toList_targetOf (path : List Char) (pairs : List (List Char)) (fragment : List Char) :
    (targetOf path pairs fragment).toList
      = path ++ '?' :: List.intercalate ['&'] pairs ++ fragment :=
  String.toList_ofList

theorem mem_intercalate {separator c : Char} {parts : List (List Char)}
    (h : c ∈ List.intercalate [separator] parts) : c = separator ∨ ∃ part ∈ parts, c ∈ part := by
  induction parts with
  | nil => exact absurd h List.not_mem_nil
  | cons first rest ih =>
    cases rest with
    | nil =>
      have hfirst : c ∈ first := by simpa [List.intercalate] using h
      exact .inr ⟨first, List.mem_cons_self, hfirst⟩
    | cons second rest =>
      have hunfold : List.intercalate [separator] (first :: second :: rest)
          = first ++ separator :: List.intercalate [separator] (second :: rest) := by
        simp [List.intercalate]
      rw [hunfold] at h
      rcases List.mem_append.1 h with hfirst | hlater
      · exact .inr ⟨first, List.mem_cons_self, hfirst⟩
      · rcases List.mem_cons.1 hlater with heq | hrest
        · exact .inl heq
        · rcases ih hrest with heq | ⟨part, hpart, hc⟩
          · exact .inl heq
          · exact .inr ⟨part, List.mem_cons_of_mem _ hpart, hc⟩

/-- **The pairs of a target are masked one by one.** -/
theorem maskUri_targetOf (hparameters : m.parameters.isEmpty = false) {path : List Char}
    {pairs : List (List Char)} {fragment : List Char} (h : IsTarget path pairs fragment)
    (hpairs : pairs ≠ []) :
    m.maskUri (targetOf path pairs fragment) = targetOf path (pairs.map m.maskPair) fragment := by
  let query := List.intercalate ['&'] pairs
  have hquery : ∀ c ∈ query, c ≠ '#' := by
    rintro c hc rfl
    rcases mem_intercalate hc with heq | ⟨pair, hpair, hmem⟩
    · exact absurd heq (by decide)
    · exact (h.pairs pair hpair).2 hmem
  have hmain : ∀ c ∈ path ++ '?' :: query, (decide (c ≠ '#')) = true := by
    intro c hc
    rcases List.mem_append.1 hc with hpath | hrest
    · exact decide_eq_true (h.path c hpath).2
    · rcases List.mem_cons.1 hrest with rfl | hmem
      · decide
      · exact decide_eq_true (hquery c hmem)
  have hpath : ∀ c ∈ path, decide (c ≠ '?') = true := fun c hc => decide_eq_true (h.path c hc).1
  have htake : fragment.takeWhile (fun c => decide (c ≠ '#')) = [] := by
    rcases h.fragment with rfl | ⟨rest, rfl⟩ <;> rfl
  have hdrop : fragment.dropWhile (fun c => decide (c ≠ '#')) = fragment := by
    rcases h.fragment with rfl | ⟨rest, rfl⟩ <;> rfl
  have hsplit : query.splitOn '&' = pairs :=
    List.splitOn_intercalate '&' (fun pair hmem => (h.pairs pair hmem).1) hpairs
  unfold maskUri
  rw [hparameters, toList_targetOf]
  change (if false = true then _ else _) = _
  rw [if_neg Bool.false_ne_true]
  dsimp only
  rw [List.takeWhile_append_of_pos hmain, List.dropWhile_append_of_pos hmain, htake, hdrop,
    List.append_nil, List.dropWhile_append_of_pos hpath]
  change String.ofList ((path ++ '?' :: query).takeWhile (fun c => decide (c ≠ '?')) ++ '?' ::
    List.intercalate ['&'] ((query.splitOn '&').map m.maskPair) ++ fragment) = _
  rw [List.takeWhile_append_of_pos hpath, hsplit]
  simp [targetOf]

/-- The name of a query pair ends where its value begins. -/
theorem takeWhile_name {name value : List Char} (hname : '=' ∉ name) (hvalue : IsValuePart value) :
    (name ++ value).takeWhile (· ≠ '=') = name := by
  have hall : ∀ c ∈ name, decide (c ≠ '=') = true := by
    intro c hc
    exact decide_eq_true fun heq => hname (heq ▸ hc)
  rw [List.takeWhile_append_of_pos hall]
  rcases hvalue with rfl | ⟨rest, rfl⟩
  · exact List.append_nil name
  · exact List.append_nil name

/-- A query pair is kept, or its name is kept and followed by the written mask. -/
theorem maskPair_append {name value : List Char} (hname : '=' ∉ name) (hvalue : IsValuePart value) :
    m.maskPair (name ++ value)
      = if m.isSensitive name then
        name ++ '=' :: (FormEncoding.encode m.mask).toList else name ++ value := by
  rw [maskPair, takeWhile_name hname hvalue]

theorem maskPair_of_value {name value : List Char} (h : m.isSensitive name = true)
    (hname : '=' ∉ name) (hvalue : IsValuePart value) :
    m.maskPair (name ++ value) = name ++ '=' :: (FormEncoding.encode m.mask).toList := by
  rw [maskPair_append hname hvalue, if_pos h]

theorem maskUri_of_change {s : MaskingSettings}
    (hparameters : m.parameters = s.parameters.map lowercase) {uri other : String}
    (h : TargetChange s uri other) : m.maskUri uri = m.maskUri other := by
  cases h with
  | value path before after name value other fragment h hname hvalue hother htarget hchanged =>
    obtain ⟨hnonempty, parameter, hmem, heq⟩ := h
    have hcontained : lowercase (FormEncoding.decode (String.ofList name)) ∈ m.parameters := by
      rw [hparameters, ← heq]
      exact List.mem_map_of_mem hmem
    have hsome : m.parameters.isEmpty = false := by
      cases hempty : m.parameters with
      | nil => exact absurd (hempty ▸ hcontained) List.not_mem_nil
      | cons first rest => rfl
    have hsensitive : m.isSensitive name = true := by
      cases name with
      | nil => exact absurd (by decide) hnonempty
      | cons c rest =>
        rw [isSensitive, List.contains_iff_mem.2 hcontained]
        rfl
    have hne : ∀ pair : List Char, before ++ pair :: after ≠ [] := by simp
    rw [maskUri_targetOf hsome htarget (hne _), maskUri_targetOf hsome hchanged (hne _),
      List.map_append, List.map_append, List.map_cons, List.map_cons,
      maskPair_of_value hsensitive hname hvalue, maskPair_of_value hsensitive hname hother]

/-! ## Bodies -/

theorem maskDocument_eq_of_agreeExcept {s : MaskingSettings}
    (hpaths : m.paths = s.jsonBodyFields.filterMap JsonPath.ofString?) {d e : Json}
    (h : JsonPath.AgreeExcept
      (fun position => s.MasksPosition d position ∧ s.MasksPosition e position) d e) :
    m.maskDocument d = m.maskDocument e := by
  have hposition : ∀ (d : Json) (position : List Nat), s.MasksPosition d position →
      ∃ path ∈ m.paths, JsonPath.Addressed path.steps d position := by
    rintro d position ⟨text, htext, path, hpath, haddressed⟩
    refine ⟨path, ?_, haddressed⟩
    rw [hpaths]
    exact List.mem_filterMap.2 ⟨text, htext, hpath⟩
  exact h.foldl_mask m.mask (fun position hboth => hposition d position hboth.1)
    fun position hboth => hposition e position hboth.2

/-- There is no document in no text. -/
theorem isEmpty_of_ofBytes? {text : Bytes} {d : Json} (h : Json.ofBytes? text = some d) :
    text.isEmpty = false := by
  cases text with
  | nil => exact absurd h nofun
  | cons b rest => rfl

/-- Masked bodies that agreed have the same value in a record. -/
theorem bodyValue_of_bodiesAgree {s : MaskingSettings}
    (hpaths : m.paths = s.jsonBodyFields.filterMap JsonPath.ofString?) {e f : Exchange}
    (h : BodiesAgree s e.truncated e.body f.body) (htruncated : e.truncated = f.truncated) :
    (m.maskExchange e).body.isEmpty = (m.maskExchange f).body.isEmpty
      ∧ Exchange.bodyValue (m.maskExchange e).body
        = Exchange.bodyValue (m.maskExchange f).body := by
  unfold maskExchange
  dsimp only
  rw [← htruncated]
  generalize f.body = other at h
  generalize e.body = body at h
  cases h with
  | same => exact ⟨rfl, rfl⟩
  | documents other d e hwhole hbody hother hagree =>
    have hmasked := maskDocument_eq_of_agreeExcept hpaths hagree
    have hsome := isEmpty_of_ofBytes? hbody
    have hotherSome := isEmpty_of_ofBytes? hother
    rw [hwhole, Bool.false_and, if_neg Bool.false_ne_true, if_neg Bool.false_ne_true,
      maskBody, maskBody, hsome, hotherSome, Bool.or_false]
    cases hempty : m.paths.isEmpty with
    | true =>
      -- without paths nothing is masked, and the two documents are the same
      have hnone : m.paths = [] := List.isEmpty_iff.1 hempty
      rw [maskDocument, maskDocument, hnone] at hmasked
      have hsame : d = e := hmasked
      rw [if_pos rfl, if_pos rfl, hsome, hotherSome, Exchange.bodyValue, Exchange.bodyValue,
        hbody, hother, hsame]
      exact ⟨rfl, rfl⟩
    | false =>
      rw [if_neg Bool.false_ne_true, if_neg Bool.false_ne_true, hbody, hother]
      dsimp only
      rw [hmasked]
      exact ⟨rfl, rfl⟩

/-! ## Records -/

/-- The record of an exchange depends on the body through its value. -/
theorem toJson_congr {e f : Exchange} (hrest : { e with body := [] } = { f with body := [] })
    (hempty : e.body.isEmpty = f.body.isEmpty)
    (hvalue : Exchange.bodyValue e.body = Exchange.bodyValue f.body)
    (includeHeaders includeBody : Bool) :
    e.toJson includeHeaders includeBody = f.toJson includeHeaders includeBody := by
  have hf : { e with body := f.body } = f :=
    congrArg (fun x : Exchange => { x with body := f.body }) hrest
  calc e.toJson includeHeaders includeBody
    _ = { e with body := f.body }.toJson includeHeaders includeBody := by
      unfold Exchange.toJson
      dsimp only
      rw [hempty, hvalue]
      rfl
    _ = f.toJson includeHeaders includeBody := by rw [hf]

end Masker

theorem record_maskExchange_eq {s : MaskingSettings} (henabled : s.enabled = true) {e f : Exchange}
    (h : AgreeExceptMasked s e f) (includeHeaders includeBody pretty : Bool) :
    ((Masker.ofSettings s).maskExchange e).record includeHeaders includeBody pretty
      = ((Masker.ofSettings s).maskExchange f).record includeHeaders includeBody pretty := by
  have hmasker : Masker.ofSettings s
      = { mask := s.maskValue, headers := s.headers.map asciiLowercase,
          parameters := s.parameters.map lowercase,
          paths := s.jsonBodyFields.filterMap JsonPath.ofString? } := by
    rw [Masker.ofSettings, henabled, if_pos rfl]
  have hheadersOf : (Masker.ofSettings s).headers = s.headers.map asciiLowercase := by rw [hmasker]
  have hparametersOf : (Masker.ofSettings s).parameters = s.parameters.map lowercase := by
    rw [hmasker]
  have hpathsOf : (Masker.ofSettings s).paths = s.jsonBodyFields.filterMap JsonPath.ofString? := by
    rw [hmasker]
  generalize Masker.ofSettings s = m at hheadersOf hparametersOf hpathsOf
  have hheaders : m.maskHeaders e.headers = m.maskHeaders f.headers :=
    Masker.eq_of_eqvGen (f := m.maskHeaders)
      (fun _ _ => Masker.maskHeaders_of_change hheadersOf) h.headers
  have huri : m.maskUri e.uri = m.maskUri f.uri :=
    Masker.eq_of_eqvGen (f := m.maskUri) (fun _ _ => Masker.maskUri_of_change hparametersOf) h.uri
  have htruncated : e.truncated = f.truncated := congrArg (·.truncated) h.rest
  obtain ⟨hempty, hvalue⟩ := Masker.bodyValue_of_bodiesAgree hpathsOf h.body htruncated
  have hbase : { m.maskExchange e with body := [] } = { m.maskExchange f with body := [] } := by
    have hrest := congrArg
      (fun x : Exchange => { x with headers := m.maskHeaders f.headers, uri := m.maskUri f.uri })
        h.rest
    unfold Masker.maskExchange
    dsimp only
    rw [hheaders, huri]
    exact hrest
  rw [Exchange.record, Exchange.record, Masker.toJson_congr hbase hempty hvalue]

/-- **Records do not depend on masked values.** Two exchanges that agree except for what is masked
have the same record, in either form and with or without headers and body, and so have they whatever
is configured for recording. -/
theorem record_eq_of_agreeExceptMasked (s : MaskingSettings) (henabled : s.enabled = true)
    (e f : Exchange) (h : AgreeExceptMasked s e f) :
    (∀ includeHeaders includeBody pretty,
        ((Masker.ofSettings s).maskExchange e).record includeHeaders includeBody pretty
          = ((Masker.ofSettings s).maskExchange f).record includeHeaders includeBody pretty)
      ∧ ∀ (recording : RecordingSettings) (includeBody : Bool),
        (Recorder.ofSettings { recording, masking := s }).write e includeBody
          = (Recorder.ofSettings { recording, masking := s }).write f includeBody := by
  have hrecord := fun includeHeaders includeBody pretty =>
    record_maskExchange_eq henabled h includeHeaders includeBody pretty
  refine ⟨hrecord, fun recording includeBody => ?_⟩
  have horigin : e.origin = f.origin := congrArg (·.origin) h.rest
  rw [Recorder.write, Recorder.write, horigin]
  exact congrArg (TrafficRecord.mk f.origin) (hrecord _ _ _)

/-- The fields of a log-in and the cards in it are masked. -/
def logInMasking : MaskingSettings :=
  { MaskingSettings.standard with jsonBodyFields := ["$.password", "$.cards[*]"] }

/-- A log-in with some secrets. -/
def logIn : Exchange :=
  { origin := .inbound, side := .request, method := ⟨"POST"⟩
    uri := "/login?user=u&access_token=abc"
    status := none
    headers := [("authorization", "Bearer abc"), ("cookie", "a=1"), ("cookie", "b=2")]
    body := Bytes.ofString "\x7b\"password\":\"hunter2\",\"cards\":[4711]\x7d"
    truncated := false, elapsedMicros := none, requestId := none }

/-- The same log-in with others. -/
def otherLogIn : Exchange :=
  { logIn with
    uri := "/login?user=u&access_token"
    headers := [("authorization", "Basic dTpw"), ("cookie", "a=1")]
    body := Bytes.ofString "\x7b \"password\": null, \"cards\": [true] \x7d" }

theorem headers_logIn :
    Relation.EqvGen (HeaderChange logInMasking) logIn.headers otherLogIn.headers := by
  have hauthorization : logInMasking.MasksHeader "authorization" :=
    ⟨"Authorization", by decide, by decide⟩
  have hcookie : logInMasking.MasksHeader "cookie" := ⟨"Cookie", by decide, by decide⟩
  have hvalue :=
    HeaderChange.value [] [("cookie", "a=1"), ("cookie", "b=2")] "authorization" "Bearer abc"
      "Basic dTpw" hauthorization
  have hrepetition :=
    HeaderChange.repetition [("authorization", "Basic dTpw"), ("cookie", "a=1")] []
      "cookie" "b=2" hcookie ⟨("cookie", "a=1"), by decide, rfl⟩
  exact .trans _ _ _ (.rel _ _ hvalue) (.symm _ _ (.rel _ _ hrepetition))

theorem masksParameter_token : logInMasking.MasksParameter "access_token".toList := by
  have hdecoded : lowercase (FormEncoding.decode (String.ofList "access_token".toList))
      = "access_token" := by
    cbv
  refine ⟨by rw [hdecoded]; decide, "access_token", by decide, ?_⟩
  rw [hdecoded]
  decide

/-- The target of a log-in with some token, or with none. -/
def logInTarget (token : List Char) : String :=
  targetOf "/login".toList (["user=u".toList] ++ ("access_token".toList ++ token) :: []) []

theorem targetChange_logIn (token other : List Char)
    (htoken : IsValuePart token ∧ '&' ∉ token ∧ '#' ∉ token)
    (hother : IsValuePart other ∧ '&' ∉ other ∧ '#' ∉ other) :
    TargetChange logInMasking (logInTarget token) (logInTarget other) := by
  have htarget : ∀ value : List Char, '&' ∉ value → '#' ∉ value →
      IsTarget "/login".toList
        (["user=u".toList] ++ ("access_token".toList ++ value) :: []) [] := by
    intro value hpair hfragment
    refine ⟨by simp, fun pair hmem => ?_, .inl rfl⟩
    rcases List.mem_cons.1 hmem with rfl | hmem
    · decide
    · rw [List.mem_singleton.1 hmem]
      exact ⟨fun h => (List.mem_append.1 h).elim (by decide) hpair,
        fun h => (List.mem_append.1 h).elim (by decide) hfragment⟩
  exact .value _ _ _ _ _ _ _ masksParameter_token (by decide) htoken.1 hother.1
    (htarget _ htoken.2.1 htoken.2.2) (htarget _ hother.2.1 hother.2.2)

theorem uri_logIn : Relation.EqvGen (TargetChange logInMasking) logIn.uri otherLogIn.uri := by
  have hchange := targetChange_logIn "=abc".toList []
    ⟨.inr ⟨"abc".toList, by decide⟩, by decide⟩ ⟨.inl rfl, by decide⟩
  have huri : logInTarget "=abc".toList = logIn.uri := by decide
  have hother : logInTarget [] = otherLogIn.uri := by decide
  rw [huri, hother] at hchange
  exact .rel _ _ hchange

theorem ofBytes?_logIn : Json.ofBytes? logIn.body
    = some (.object [("password", .string "hunter2"),
        ("cards", .array [.number (.integer 4711)])]) := by
  cbv

theorem ofBytes?_otherLogIn : Json.ofBytes? otherLogIn.body
    = some (.object [("password", .null), ("cards", .array [.bool true])]) := by
  cbv

theorem body_logIn : BodiesAgree logInMasking logIn.truncated logIn.body otherLogIn.body := by
  have hpassword : JsonPath.ofString? "$.password" = some ⟨[.field "password"]⟩ := by decide
  have hcards : JsonPath.ofString? "$.cards[*]" = some ⟨[.field "cards", .each]⟩ := by decide
  refine .documents _ _ _ rfl ofBytes?_logIn ofBytes?_otherLogIn (.object _ _ _ rfl ?_)
  have hpasswordMasked : ∀ (value : Json) (rest : List (String × Json)),
      logInMasking.MasksPosition (.object (("password", value) :: rest)) [0] := fun value rest =>
    ⟨"$.password", by decide, _, hpassword, .field _ _ _ value rfl⟩
  have hcardMasked : ∀ (password card : Json), JsonPath.IsScalar card → logInMasking.MasksPosition
      (.object [("password", password), ("cards", .array [card])]) [1, 0] := fun password card h =>
    ⟨"$.cards[*]", by decide, _, hcards,
      .inField _ _ _ _ _ _ rfl (.each _ _ _ _ rfl (.scalar card h))⟩
  intro i field other hfield hother
  cases i with
  | zero => exact .except _ _ _ ⟨hpasswordMasked _ _, hpasswordMasked _ _⟩
  | succ i =>
    cases i with
    | zero =>
      obtain rfl := Option.some.inj hfield
      obtain rfl := Option.some.inj hother
      refine .array _ _ _ rfl fun j item card hitem hcard => ?_
      cases j with
      | zero =>
        obtain rfl := Option.some.inj hitem
        obtain rfl := Option.some.inj hcard
        exact .except _ _ _ ⟨hcardMasked _ _ trivial, hcardMasked _ _ trivial⟩
      | succ j => simp at hitem
    | succ i => simp at hfield

/-- Another password and another card, no token, and one cookie less. -/
theorem agreeExceptMasked_logIn : AgreeExceptMasked logInMasking logIn otherLogIn :=
  ⟨headers_logIn, uri_logIn, body_logIn, rfl⟩

theorem record_eq_of_agreeExceptMasked_logIn :
    logInMasking.enabled = true ∧ AgreeExceptMasked logInMasking logIn otherLogIn
      ∧ logIn ≠ otherLogIn
      ∧ (∀ includeHeaders includeBody pretty,
          ((Masker.ofSettings logInMasking).maskExchange logIn).record
              includeHeaders includeBody pretty
            = ((Masker.ofSettings logInMasking).maskExchange otherLogIn).record
              includeHeaders includeBody pretty)
      ∧ ∀ (recording : RecordingSettings) (includeBody : Bool),
        (Recorder.ofSettings { recording, masking := logInMasking }).write logIn includeBody
          = (Recorder.ofSettings { recording, masking := logInMasking }).write otherLogIn
            includeBody :=
  ⟨rfl, agreeExceptMasked_logIn, by decide,
    record_eq_of_agreeExceptMasked logInMasking rfl logIn otherLogIn agreeExceptMasked_logIn⟩

end Gatehouse.Traffic
