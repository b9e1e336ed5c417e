/-
The target that the records of an exchange name.

Both records of an exchange show its path, and its host if there is one. The path and a host in the
target are the same for both, as masking rewrites nothing but the query, and what it writes there
can stand in any query. So a masked target is read as before (`Masker.ofString?_maskUri`), unless it
has become too long.

A target without a host leaves the host to the headers, and there the two sides differ: a request
has a `host` header where a response has none. The two records name the same host exactly if the
target does, or if the headers of both sides do (`Session.sameTarget_iff`).
-/
import Gatehouse.Proofs.Traffic.Levels

set_option autoImplicit false

namespace Gatehouse

open Gatehouse.Http

namespace Http.Uri

/-! ## Targets with a query -/

/-- **A query between a path and a fragment,** and each of them ends where it is cut off. -/
structure IsCut (path query fragment : List Char) : Prop where
  path : ∀ c ∈ path, c ≠ '?' ∧ c ≠ '#'
  query : '#' ∉ query
  fragment : fragment = [] ∨ ∃ rest, fragment = '#' :: rest

/-- No part of an authority is a question mark. -/
theorem isAuthority_of_question (before after : List Char) :
    isAuthority (before ++ '?' :: after) = false := by
  have hstep : ∀ scan : AuthorityScan, scan.step '?' = none := fun scan => by
    simp [AuthorityScan.step, isAuthorityChar]
  have hnone : ∀ scan, (before ++ '?' :: after).foldlM AuthorityScan.step scan = none := by
    intro scan
    rw [List.foldlM_append]
    cases before.foldlM AuthorityScan.step scan with
    | none => rfl
    | some scan => simp [hstep]
  rw [isAuthority, hnone]

/-- What opens an address is not completed by a question mark. -/
theorem opening_of_append {text rest tail : List Char}
    (h : text ++ '?' :: rest = ':' :: '/' :: '/' :: tail) :
    ∃ address, text = ':' :: '/' :: '/' :: address ∧ tail = address ++ '?' :: rest := by
  match text, h with
  | [], h => simp at h
  | [_], h => simp at h
  | [_, _], h => simp at h
  | _ :: _ :: _ :: address, h =>
    simp only [List.cons_append, List.cons.injEq] at h
    obtain ⟨rfl, rfl, rfl, htail⟩ := h
    exact ⟨address, rfl, htail.symm⟩

theorem splitScheme?_append (path rest : List Char) :
    splitScheme? (path ++ '?' :: rest) = (splitScheme? path).map fun split =>
      (split.1, split.2 ++ '?' :: rest) := by
  have hname : (path ++ '?' :: rest).takeWhile isSchemeChar = path.takeWhile isSchemeChar :=
    takeWhile_append_cons path rest (by decide)
  unfold splitScheme?
  dsimp only
  rw [hname, List.drop_append_of_le_length (List.takeWhile_prefix _).length_le]
  generalize path.takeWhile isSchemeChar = name
  split
  · rename_i tail hopening
    obtain ⟨address, haddress, rfl⟩ := opening_of_append hopening
    rw [haddress]
    split
    · rfl
    · split <;> rfl
  · rename_i hopening
    split
    · rename_i address haddress
      rw [haddress] at hopening
      exact absurd rfl (hopening (address ++ '?' :: rest))
    · rfl

/-- **A path with a query** is read as the path, and as the query. -/
theorem pathAndQuery?_query {path query fragment : List Char} (h : IsCut path query fragment) :
    pathAndQuery? (path ++ '?' :: (query ++ fragment))
      = if query.all isQueryChar then
          (pathAndQuery? path).map fun read => (read.1, some (String.ofList query))
        else none := by
  have hall : ∀ c ∈ path, decide (c ≠ '?' ∧ c ≠ '#') = true := fun c hc =>
    decide_eq_true (h.path c hc)
  have hself : path.takeWhile (fun c => decide (c ≠ '?' ∧ c ≠ '#')) = path :=
    List.takeWhile_eq_self_iff.2 hall
  have hcut : (path ++ '?' :: (query ++ fragment)).takeWhile
      (fun c => decide (c ≠ '?' ∧ c ≠ '#')) = path :=
    (takeWhile_append_cons path _ (by decide)).trans hself
  have hread : (query ++ fragment).takeWhile (fun c => decide (c ≠ '#')) = query := by
    have hnone : ∀ c ∈ query, decide (c ≠ '#') = true := by
      intro c hc
      exact decide_eq_true fun heq => h.query (heq ▸ hc)
    rw [List.takeWhile_append_of_pos hnone]
    rcases h.fragment with rfl | ⟨rest, rfl⟩ <;> simp
  unfold pathAndQuery?
  dsimp only
  rw [hcut, hself, List.drop_left, List.drop_length]
  cases path.all isPathChar with
  | false => simp
  | true =>
    change (if ((query ++ fragment).takeWhile fun c => decide (c ≠ '#')).all isQueryChar then _
      else none) = _
    rw [hread]
    rfl

/-- An address with a query is read as the address, and as the query. -/
theorem absolute?_query (scheme : String) {address query fragment : List Char}
    (h : IsCut address query fragment) :
    absolute? scheme (address ++ '?' :: (query ++ fragment))
      = if query.all isQueryChar then
          (absolute? scheme address).map fun u => { u with query := some (String.ofList query) }
        else none := by
  have hcut : (address ++ '?' :: (query ++ fragment)).takeWhile (fun c => !endsAuthority c)
      = address.takeWhile fun c => !endsAuthority c := takeWhile_append_cons address _ (by decide)
  unfold absolute?
  dsimp only
  rw [hcut, List.drop_append_of_le_length (List.takeWhile_prefix _).length_le]
  generalize address.takeWhile (fun c => !endsAuthority c) = authority
  rw [pathAndQuery?_query { h with path := fun c hc => h.path c (List.mem_of_mem_drop hc) }]
  cases authority.isEmpty || !isAuthority authority with
  | true => simp
  | false =>
    cases query.all isQueryChar with
    | false => rfl
    | true => simp [Function.comp_def]

/-- A text in front of a query, as a target. -/
def beforeQuery? : List Char → Option Uri
  | '/' :: rest => (pathAndQuery? ('/' :: rest)).map fun (path, query) =>
    { scheme := none, authority := "", path, query }
  | text =>
    match splitScheme? text with
    | some (some scheme, rest) => absolute? scheme rest
    | _ => none

theorem mem_of_splitScheme? {text rest : List Char} {scheme : Option String}
    (h : splitScheme? text = some (scheme, rest)) {c : Char} (hc : c ∈ rest) : c ∈ text := by
  unfold splitScheme? at h
  dsimp only at h
  split at h
  · rename_i tail hopening
    have htail : c ∈ tail → c ∈ text := by
      intro hmem
      refine List.mem_of_mem_drop (i := (text.takeWhile isSchemeChar).length) ?_
      rw [hopening]
      simp [hmem]
    split at h
    · cases h
      exact htail hc
    · split at h
      · cases h
      · cases h
        exact htail hc
  · cases h
    exact hc

/-- **A target with a query** is read as what stands in front of it, and as the query. -/
theorem ofString?_query {s : String} {path query fragment : List Char}
    (hs : s.toList = path ++ '?' :: (query ++ fragment)) (h : IsCut path query fragment) :
    ofString? s
      = if maxLength < s.utf8ByteSize then none
        else if query.all isQueryChar then
          (beforeQuery? path).map fun u => { u with query := some (String.ofList query) }
        else none := by
  unfold ofString?
  refine if_congr Iff.rfl rfl ?_
  rw [hs]
  -- the question mark rules out the texts that are read whole, and a text that is an authority
  -- throughout
  split
  · rename_i htext
    exact absurd htext (by simp)
  · rename_i htext
    match path, htext with
    | [], htext => simp at htext
    | _ :: path, htext => simp at htext
  · rename_i rest htext
    match path, htext, h with
    | [], htext, _ => simp at htext
    | c :: path, htext, h =>
      obtain ⟨rfl, rfl⟩ : c = '/' ∧ path ++ '?' :: (query ++ fragment) = rest := by
        simpa using htext
      rw [← List.cons_append, pathAndQuery?_query h, beforeQuery?]
      cases query.all isQueryChar with
      | false => rfl
      | true => simp [Function.comp_def]
  · rename_i hnil hstar hslash
    have hother : beforeQuery? path = match splitScheme? path with
        | some (some scheme, rest) => absolute? scheme rest
        | _ => none := by
      unfold beforeQuery?
      split
      · exact absurd rfl (hslash _)
      · rfl
    rw [hother, splitScheme?_append]
    match hsplit : splitScheme? path with
    | none => cases query.all isQueryChar <;> rfl
    | some (some scheme, address) =>
      exact absolute?_query scheme
        { h with path := fun c hc => h.path c (mem_of_splitScheme? hsplit hc) }
    | some (none, address) =>
      rw [isAuthority_of_question]
      cases query.all isQueryChar <;> rfl

end Http.Uri

namespace Traffic

/-! ## Masked targets -/

namespace Masker

variable (m : Masker)

/-- A query whose pairs are masked one by one. -/
def maskQuery (query : List Char) : List Char :=
  List.intercalate ['&'] ((query.splitOn '&').map m.maskPair)

/-- A query between a path and a fragment is cut into the pairs of a target. -/
theorem isTarget_splitOn {path query fragment : List Char} (h : Uri.IsCut path query fragment) :
    IsTarget path (query.splitOn '&') fragment :=
  { path := h.path
    pairs := fun _ hpair => ⟨fun hmem => (mem_of_mem_splitOn hpair hmem).2 rfl,
      fun hmem => h.query (mem_of_mem_splitOn hpair hmem).1⟩
    fragment := h.fragment }

/-- A target without a question mark in front of a fragment stays as it is, and any other has
its query masked. -/
theorem maskUri_cases (uri : String) :
    m.maskUri uri = uri ∨ ∃ path query fragment, Uri.IsCut path query fragment
      ∧ uri.toList = path ++ '?' :: (query ++ fragment)
      ∧ (m.maskUri uri).toList = path ++ '?' :: (m.maskQuery query ++ fragment) := by
  cases hparameters : m.parameters.isEmpty with
  | true => exact .inl (if_pos hparameters)
  | false =>
    obtain ⟨main, fragment, huri, hmain, hfragment⟩ := exists_cut '#' uri.toList
    obtain ⟨path, rest, rfl, hpath, hquery⟩ := exists_cut '?' main
    rcases hquery with rfl | ⟨query, rfl⟩
    · -- there is nothing to mask in front of the fragment
      rw [List.append_nil] at huri hmain
      have hcut : uri.toList.takeWhile (fun c => decide (c ≠ '#')) = path := by
        have hkept : ∀ c ∈ path, decide (c ≠ '#') = true := fun c hc =>
          decide_eq_true fun heq => hmain (heq ▸ hc)
        rw [huri, List.takeWhile_append_of_pos hkept]
        rcases hfragment with rfl | ⟨rest, rfl⟩ <;> simp
      have hnone : path.dropWhile (fun c => decide (c ≠ '?')) = [] :=
        List.dropWhile_eq_nil_iff.2 fun c hc => decide_eq_true fun heq => hpath (heq ▸ hc)
      refine .inl ?_
      unfold maskUri
      rw [if_neg (Bool.eq_false_iff.1 hparameters)]
      dsimp only
      rw [hcut, hnone]
    · have hcut : Uri.IsCut path query fragment :=
        { path := fun c hc =>
          ⟨fun heq => hpath (heq ▸ hc), fun heq => hmain (List.mem_append_left _ (heq ▸ hc))⟩
          query := fun hmem => hmain (by simp [hmem])
          fragment := hfragment }
      have htargetOf : uri = targetOf path (query.splitOn '&') fragment := by
        rw [targetOf, List.intercalate_splitOn, ← huri, String.ofList_toList]
      have hmasked : m.maskUri uri
          = targetOf path ((query.splitOn '&').map m.maskPair) fragment := by
        conv_lhs => rw [htargetOf]
        exact maskUri_targetOf hparameters (isTarget_splitOn hcut) (List.splitOn_ne_nil _ _)
      refine .inr ⟨path, query, fragment, hcut, by simpa using huri, ?_⟩
      rw [hmasked, toList_targetOf, List.append_assoc]
      rfl

theorem isQueryChar_encodeByte (b : UInt8) :
    (FormEncoding.encodeByte b).all Uri.isQueryChar = true := by
  revert b
  decide +kernel

/-- What is written in the place of a value can stand in a query. -/
theorem isQueryChar_maskPair {pair : List Char} (hpair : ∀ c ∈ pair, Uri.isQueryChar c = true)
    {c : Char} (hc : c ∈ m.maskPair pair) : Uri.isQueryChar c = true := by
  unfold maskPair at hc
  dsimp only at hc
  split at hc
  · rcases List.mem_append.1 hc with hname | hvalue
    · exact hpair c (List.takeWhile_subset _ hname)
    · rcases List.mem_cons.1 hvalue with rfl | hmask
      · decide
      · rw [FormEncoding.encode, String.toList_ofList] at hmask
        obtain ⟨b, -, hb⟩ := List.mem_flatMap.1 hmask
        exact List.all_eq_true.1 (isQueryChar_encodeByte b) c hb
  · exact hpair c hc

theorem isQueryChar_maskQuery {query : List Char} (hquery : query.all Uri.isQueryChar = true) :
    (m.maskQuery query).all Uri.isQueryChar = true := by
  rw [List.all_eq_true] at hquery ⊢
  intro c hc
  rcases mem_intercalate hc with rfl | ⟨masked, hmasked, hmem⟩
  · decide
  · obtain ⟨pair, hpair, rfl⟩ := List.mem_map.1 hmasked
    exact m.isQueryChar_maskPair (fun d hd => hquery d (mem_of_mem_splitOn hpair hd).1) hmem

/-- **A masked target is read as before** but for its query, if it has not become too long. -/
theorem ofString?_maskUri {uri : String} {u : Uri} (h : Uri.ofString? uri = some u)
    (hfits : (m.maskUri uri).utf8ByteSize ≤ Uri.maxLength) :
    ∃ query, Uri.ofString? (m.maskUri uri) = some { u with query } := by
  rcases m.maskUri_cases uri with hsame | ⟨path, query, fragment, hcut, huri, hmasked⟩
  · rw [hsame]
    exact ⟨u.query, h⟩
  · rw [Uri.ofString?_query huri hcut] at h
    split at h
    · cases h
    · split at h
      · rename_i hreadable
        obtain ⟨before, hbefore, rfl⟩ := Option.map_eq_some_iff.1 h
        have hmaskedReadable := m.isQueryChar_maskQuery hreadable
        have hnoFragment : '#' ∉ m.maskQuery query := fun hmem =>
          absurd (List.all_eq_true.1 hmaskedReadable '#' hmem) (by decide)
        rw [Uri.ofString?_query hmasked { hcut with query := hnoFragment },
          if_neg (Nat.not_lt.2 hfits), if_pos hmaskedReadable, hbefore]
        exact ⟨_, rfl⟩
      · cases h

/-- A masked target names the host of the target, unless it has become too long. -/
theorem host?_maskUri {uri : String} {u : Uri} (h : Uri.ofString? uri = some u) :
    (Uri.ofString? (m.maskUri uri)).bind Uri.host?
      = if (m.maskUri uri).utf8ByteSize ≤ Uri.maxLength then u.host? else none := by
  split
  · rename_i hfits
    obtain ⟨query, hread⟩ := m.ofString?_maskUri h hfits
    rw [hread]
    rfl
  · rename_i hlong
    rw [Uri.ofString?, if_pos (Nat.lt_of_not_le hlong)]
    rfl

/-- The host that is taken from headers: the first of that name, or the mask. -/
def headerHost? (h : Headers) : Option String :=
  h.host?.map fun value => if m.headers.contains "host" then m.mask else Bytes.lossy value

end Masker

/-! ## Hosts and paths of records -/

namespace Exchange

/-- The path stands behind the host, if there is one. -/
theorem field?_path (e : Exchange) (includeHeaders includeBody : Bool) :
    (e.toJson includeHeaders includeBody).field? "path" = some (.string e.path) := by
  have hhost : "path" ∉ (optionalField "host" (e.host?.map .string)).map (·.1) := fun h =>
    absurd (names_optionalField "host" _ h) (by decide)
  rw [toJson_eq, Json.field?, Table.lookup_append_of_notMem (by simp [Table.keys]), middleFields_eq,
    List.append_assoc, Table.lookup_append_of_notMem hhost]
  exact List.lookup_cons_self

theorem field?_host (e : Exchange) (includeHeaders includeBody : Bool) :
    (e.toJson includeHeaders includeBody).field? "host" = e.host?.map .string := by
  rw [toJson_eq, Json.field?, Table.lookup_append_of_notMem (by simp [Table.keys]), middleFields_eq,
    List.append_assoc, lookup_optionalField_append]
  rw [List.cons_append, List.map_cons, List.map_append, List.mem_cons, List.mem_append,
    not_or, not_or]
  refine ⟨(by decide : "host" ≠ "path"), fun h => ?_, fun h => ?_⟩
  · exact absurd (e.names_detailFields includeHeaders includeBody h) (by decide)
  · exact absurd (names_optionalField "trace" _ h) (by decide)

end Exchange

/-- The host of a masked side is the host of its target, or else the one in its headers. -/
theorem Masker.host?_maskExchange_toPairs (m : Masker) {e : Exchange} {h : Headers}
    (he : e.headers = h.toPairs) :
    (m.maskExchange e).host?
      = ((Uri.ofString? (m.maskUri e.uri)).bind Uri.host?).or (m.headerHost? h) := by
  rw [host?_maskExchange, hostHeader?_eq, he, hostValue?_toPairs, Option.map_map]
  rfl

namespace Recorder

/-- The text of a document in the records of a recorder. -/
def textOf (r : Recorder) (document : Json) : String :=
  if r.pretty then document.renderPretty else document.render

/-- **The target names a host** where it is recorded. -/
def TargetNamesHost (r : Recorder) (request : Request) : Prop :=
  ((Uri.ofString? (r.masker.maskUri request.uri.display)).bind Uri.host?).isSome = true

theorem targetNamesHost_iff (r : Recorder) {request : Request}
    (hread : Uri.ofString? request.uri.display = some request.uri) :
    r.TargetNamesHost request
      ↔ request.uri.host?.isSome = true
        ∧ (r.masker.maskUri request.uri.display).utf8ByteSize ≤ Uri.maxLength := by
  rw [TargetNamesHost, r.masker.host?_maskUri hread]
  split <;> simp [*]

end Recorder

theorem map_string_or_eq_iff (target asked answered : Option String) :
    (target.or asked).map Json.string = (target.or answered).map Json.string
      ↔ target.isSome = true ∨ asked = answered := by
  rw [(Option.map_injective fun _ _ h => Json.string.inj h).eq_iff]
  cases target <;> simp

/-! ## The two records of an exchange -/

namespace Session

variable {σ τ : Type}

variable {r : Recorder} {requests : Source σ} {responses : Source τ} {origin : Origin}
  {request : Request} {body : σ} {startedAt : Nat} {actions : List (SessionAction τ)}
  {c : Conclusion}

/-- The two records of a concluded exchange are written from documents with the same path, and with
the host of the target or else the one in the headers of the side. -/
theorem documents_of_concludedBy
    (h : (start r origin request body startedAt : Session σ τ).ConcludedBy r requests
      responses actions c) :
    let target := (Uri.ofString? (r.masker.maskUri request.uri.display)).bind Uri.host?
    ∃ asked answered : Json,
      ((start r origin request body startedAt : Session σ τ).run r requests responses
        actions).records
          = [⟨origin, r.textOf asked⟩, ⟨origin, r.textOf answered⟩]
        ∧ asked.field? "type" = some (.string "request")
        ∧ answered.field? "type" = some (.string "response")
        ∧ (∃ path, asked.field? "path" = some (.string path)
            ∧ answered.field? "path" = some (.string path))
        ∧ asked.field? "host" = (target.or (r.masker.headerHost? request.headers)).map .string
        ∧ answered.field? "host" = (target.or (r.masker.headerHost? c.headers)).map .string := by
  intro target
  let note := RequestNote.ofRequest origin request startedAt
  refine ⟨(r.masker.maskExchange (c.requestSide r note)).toJson r.includesHeaders
    r.includesRequestBody,
    (r.masker.maskExchange (c.responseSide r note)).toJson r.includesHeaders
      (r.includesResponseBody c.status),
    records_run_of_concludedBy h, ?_, ?_,
    ⟨_, Exchange.field?_path _ _ _, Exchange.field?_path _ _ _⟩, ?_, ?_⟩
  · rw [Exchange.toJson_eq]
    rfl
  · rw [Exchange.toJson_eq]
    rfl
  · rw [Exchange.field?_host, r.masker.host?_maskExchange_toPairs (h := request.headers) rfl]
    rfl
  · rw [Exchange.field?_host, r.masker.host?_maskExchange_toPairs (h := c.headers) rfl]
    rfl

/-- **The target of the two records.** When an exchange is concluded it has a record of its request
and a record of its response. They show the same path. They show the same host, or none, exactly if
the target names a host or the headers of the request and of the response name the same.

A target that reads as itself names a host exactly if there is an authority in it, and if masking
does not make it too long. -/
theorem sameTarget_iff (r : Recorder) (requests : Source σ) (responses : Source τ) (origin : Origin)
    (request : Request) (body : σ) (startedAt : Nat) (actions : List (SessionAction τ))
    (c : Conclusion) :
    let begun : Session σ τ := start r origin request body startedAt
    begun.ConcludedBy r requests responses actions c →
    ∃ asked answered : Json,
      (begun.run r requests responses actions).records
        = [⟨origin, r.textOf asked⟩, ⟨origin, r.textOf answered⟩]
        ∧ asked.field? "type" = some (.string "request")
        ∧ answered.field? "type" = some (.string "response")
        ∧ (∃ path, asked.field? "path" = some (.string path)
            ∧ answered.field? "path" = some (.string path))
        ∧ (asked.field? "host" = answered.field? "host"
            ↔ r.TargetNamesHost request
              ∨ r.masker.headerHost? request.headers = r.masker.headerHost? c.headers)
        ∧ (Uri.ofString? request.uri.display = some request.uri →
            (r.TargetNamesHost request
              ↔ request.uri.host?.isSome = true
                ∧ (r.masker.maskUri request.uri.display).utf8ByteSize ≤ Uri.maxLength)) := by
  intro begun hconcluded
  obtain ⟨asked, answered, hrecords, hasked, hanswered, hpath, hhost, hhost'⟩ :=
    documents_of_concludedBy hconcluded
  refine ⟨asked, answered, hrecords, hasked, hanswered, hpath, ?_, r.targetNamesHost_iff⟩
  rw [hhost, hhost']
  exact map_string_or_eq_iff _ _ _

/-- An order without a body. -/
def bareOrder (uri : Uri) (headers : Headers) : Request :=
  { method := ⟨"POST"⟩, uri, headers, body := Body.empty, assignedId := none }

/-- The service says that the order is made, and the client reads that to its end. -/
def made : List (SessionAction Body) := [.respond ⟨201⟩ Headers.empty Body.empty, .readResponse 12]

def madeConclusion : Conclusion :=
  { status := ⟨201⟩, headers := Headers.empty, requestRead := [], responseRead := [], now := 12 }

theorem concludedBy_made (uri : Uri) (headers : Headers) :
    (start (Recorder.ofSettings Settings.standard) .inbound (bareOrder uri headers) Body.empty 0
      : Session Body Body).ConcludedBy (Recorder.ofSettings Settings.standard)
        Body.source Body.source made madeConclusion := by
  have hopen : (start (Recorder.ofSettings Settings.standard) .inbound
      (bareOrder uri headers) Body.empty 0
      : Session Body Body).Open (Recorder.ofSettings Settings.standard) Body.source Body.source
        (made.take 1) :=
    (open_iff_not_settled (fun hsettled => hsettled.1 rfl) rfl).2
      (not_settled_iff.2 (.inr ⟨_, rfl, rfl, rfl⟩))
  exact ⟨made.take 1, .readResponse 12, [], rfl, hopen, .poll 12 _ rfl rfl (.inl rfl), .inl rfl,
    ⟨_, rfl, rfl, rfl⟩, rfl, rfl⟩

/-- The target of an order to an address. -/
def shopTarget : Uri :=
  { scheme := some "http", authority := "shop.local", path := "/orders",
    query := some "access_token=abc" }

theorem ofString?_shopTarget : Uri.ofString? shopTarget.display = some shopTarget := by
  decide +kernel

theorem maskUri_shopTarget :
    (Recorder.ofSettings Settings.standard).masker.maskUri shopTarget.display
    = "http://shop.local/orders?access_token=****" := by
  cbv

/-- The two records of an order to an address show the same host and path, though no
header names a host. -/
theorem sameTarget_iff_absolute :
    let r := Recorder.ofSettings Settings.standard
    let run := (start r .inbound (bareOrder shopTarget Headers.empty) Body.empty 0
      : Session Body Body).run r Body.source Body.source made
    ∃ asked answered : Json,
      run.records = [⟨.inbound, asked.render⟩, ⟨.inbound, answered.render⟩]
        ∧ asked.field? "path" = answered.field? "path"
        ∧ asked.field? "host" = answered.field? "host" := by
  intro r run
  obtain ⟨asked, answered, hrecords, -, -, ⟨path, hasked, hanswered⟩, hhost, htarget⟩ :=
    sameTarget_iff r Body.source Body.source .inbound (bareOrder shopTarget Headers.empty)
      Body.empty 0 made madeConclusion (concludedBy_made shopTarget Headers.empty)
  have hfits : (r.masker.maskUri shopTarget.display).utf8ByteSize ≤ Uri.maxLength := by
    rw [maskUri_shopTarget]
    decide
  have hnamed : r.TargetNamesHost (bareOrder shopTarget Headers.empty) :=
    (htarget ofString?_shopTarget).2 ⟨by decide, hfits⟩
  exact ⟨asked, answered, hrecords, hasked.trans hanswered.symm, hhost.2 (.inl hnamed)⟩

/-- The target of an order to whatever host a header names. -/
def orderTarget : Uri := { scheme := none, authority := "", path := "/api/orders", query := none }

def shopHeaders : Headers := Headers.ofList [(⟨"host"⟩, Bytes.ofString "shop.local")]

/-- **A response without a host:** the request names one in a header, and only its own
record shows it. -/
theorem not_sameTarget_hostHeader :
    let r := Recorder.ofSettings Settings.standard
    let run := (start r .inbound (bareOrder orderTarget shopHeaders) Body.empty 0
      : Session Body Body).run r Body.source Body.source made
    let asked : Json := .object [("source", .string "inbound"), ("type", .string "request"),
      ("method", .string "POST"), ("uri", .string "/api/orders"), ("host", .string "shop.local"),
      ("path", .string "/api/orders")]
    let answered : Json := .object [("source", .string "inbound"), ("type", .string "response"),
      ("method", .string "POST"), ("uri", .string "/api/orders"), ("path", .string "/api/orders"),
      ("statusCode", .nat 201), ("duration", .string "12ms")]
    run.records = [⟨.inbound, asked.render⟩, ⟨.inbound, answered.render⟩]
      ∧ asked.field? "host" = some (.string "shop.local") ∧ answered.field? "host" = none :=
  ⟨by decide +kernel, rfl, rfl⟩

end Session
end Traffic
end Gatehouse
