/-
What masking does to a query, and that it does nothing else.

A target is cut at its first number sign, and what stands in front of that at its first question
mark. Between the two is the query, and its pieces are masked one by one. A piece whose name says no
listed parameter is kept as it is written. A piece whose name says one keeps the name as it is
written, and what is written behind it is read as the mask, whatever text the mask is
(`MaskingSettings.PairMasked`).

So a masked query is read as the query would be with the mask for each listed value
(`pairs_masked`): to mask a target and to mask what its query says is the same.
-/
import Gatehouse.Proofs.Text.FormReading
import Gatehouse.Proofs.Traffic.Targets

set_option autoImplicit false

namespace Gatehouse

open Gatehouse.Http

/-! ## Names in lower case -/

theorem lowerFrom_ne_nil (before : List Char) (c : Char) (rest : List Char) :
    lowerFrom before (c :: rest) ≠ [] := by
  rw [lowerFrom]
  refine List.append_ne_nil_of_left_ne_nil ?_ _
  unfold lowerChar
  repeat' split
  all_goals exact List.cons_ne_nil _ _

/-- Nothing but the empty text is empty in lower case. -/
theorem lowercase_eq_empty_iff (s : String) : lowercase s = "" ↔ s = "" := by
  constructor
  · intro h
    have hnil : lowerFrom [] s.toList = [] := by
      rw [← String.toList_ofList (l := lowerFrom [] s.toList)]
      exact String.toList_eq_nil_iff.2 h
    refine String.toList_eq_nil_iff.1 ?_
    cases hs : s.toList with
    | nil => rfl
    | cons c rest => exact absurd (hs ▸ hnil) (lowerFrom_ne_nil [] c rest)
  · rintro rfl
    rfl

namespace Traffic

/-! ## Masked pairs -/

namespace MaskingSettings

/-- A name, as it is read, is one of the listed parameters but for its case. -/
def ListsParameter (s : MaskingSettings) (name : String) : Prop :=
  ∃ parameter ∈ s.parameters, lowercase parameter = lowercase name

instance (s : MaskingSettings) (name : String) : Decidable (s.ListsParameter name) :=
  inferInstanceAs (Decidable (∃ parameter ∈ s.parameters, lowercase parameter = lowercase name))

/-- A name and a value, as they are read, with the mask for a listed value. -/
def maskRead (s : MaskingSettings) (read : String × String) : String × String :=
  if s.ListsParameter read.1 then (read.1, s.maskValue) else read

/-- **What becomes of one piece of a query.** It is kept if its name is not listed. If it is, the
name stays as it is written, and what is written behind it is read as the mask. -/
inductive PairMasked (s : MaskingSettings) : List Char → List Char → Prop where
  | kept (name value : List Char) (hname : '=' ∉ name) (hvalue : IsValuePart value)
      (hother : ¬s.ListsParameter (FormEncoding.decode (String.ofList name))) :
    PairMasked s (name ++ value) (name ++ value)
  | masked (name value written : List Char) (hname : '=' ∉ name) (hvalue : IsValuePart value)
      (hlisted : s.ListsParameter (FormEncoding.decode (String.ofList name)))
      (hwritten : FormEncoding.decode (String.ofList written) = s.maskValue) :
    PairMasked s (name ++ value) (name ++ '=' :: written)

variable {s : MaskingSettings}

/-- Where no parameter is nameless, a listed name is some text. -/
theorem ne_nil_of_listsParameter (hnamed : "" ∉ s.parameters) {name : List Char}
    (h : s.ListsParameter (FormEncoding.decode (String.ofList name))) : name ≠ [] := by
  rintro rfl
  obtain ⟨parameter, hmem, heq⟩ := h
  have hempty : parameter = "" := (lowercase_eq_empty_iff parameter).1 (heq.trans (by decide))
  exact hnamed (hempty ▸ hmem)

/-- The name that a piece says is the one that is written in front of its value. -/
theorem readPair_fst {name value : List Char} (hname : '=' ∉ name) (hvalue : IsValuePart value) :
    (FormEncoding.readPair (name ++ value)).1 = FormEncoding.decode (String.ofList name) := by
  rw [FormEncoding.readPair, Masker.takeWhile_name hname hvalue]

namespace PairMasked

variable {pair masked : List Char}

theorem isEmpty_eq (hnamed : "" ∉ s.parameters) (h : s.PairMasked pair masked) :
    masked.isEmpty = pair.isEmpty := by
  cases h with
  | kept => rfl
  | masked name value written hname hvalue hlisted hwritten =>
    obtain ⟨c, rest, rfl⟩ := List.exists_cons_of_ne_nil (ne_nil_of_listsParameter hnamed hlisted)
    rfl

/-- **One piece is read as what it said,** with the mask for a listed value. -/
theorem readPair_eq (h : s.PairMasked pair masked) :
    FormEncoding.readPair masked = s.maskRead (FormEncoding.readPair pair) := by
  cases h with
  | kept name value hname hvalue hother => rw [maskRead, readPair_fst hname hvalue, if_neg hother]
  | masked name value written hname hvalue hlisted hwritten =>
    rw [maskRead, readPair_fst hname hvalue, if_pos hlisted,
      FormEncoding.readPair_value hname, hwritten]

end PairMasked

/-- Pieces without any text say nothing before and after masking, and the others are
read one by one. -/
theorem map_readPair_masked (hnamed : "" ∉ s.parameters) {pieces maskedPieces : List (List Char)}
    (h : List.Forall₂ s.PairMasked pieces maskedPieces) :
    (maskedPieces.filter fun piece => !piece.isEmpty).map FormEncoding.readPair
      = ((pieces.filter fun piece => !piece.isEmpty).map FormEncoding.readPair).map s.maskRead := by
  induction h with
  | nil => rfl
  | cons hpair hrest ih =>
    rw [List.filter_cons, List.filter_cons, hpair.isEmpty_eq hnamed]
    split
    · rw [List.map_cons, List.map_cons, List.map_cons, hpair.readPair_eq, ih]
    · exact ih

/-- **A masked query is read as what the query says,** with the mask for each listed value. -/
theorem pairs_masked (hnamed : "" ∉ s.parameters) {pieces maskedPieces : List (List Char)}
    (hpieces : ∀ piece ∈ pieces, '&' ∉ piece) (hmasked : ∀ piece ∈ maskedPieces, '&' ∉ piece)
    (hne : pieces ≠ []) (h : List.Forall₂ s.PairMasked pieces maskedPieces) :
    FormEncoding.pairs (List.intercalate ['&'] maskedPieces)
      = (FormEncoding.pairs (List.intercalate ['&'] pieces)).map s.maskRead := by
  have hne' : maskedPieces ≠ [] := by
    rintro rfl
    exact hne (List.forall₂_nil_right_iff.1 h)
  rw [FormEncoding.pairs_intercalate hpieces hne, FormEncoding.pairs_intercalate hmasked hne',
    map_readPair_masked hnamed h]

end MaskingSettings

/-! ## Masked targets -/

namespace Masker

variable {s : MaskingSettings}

theorem isSensitive_iff (henabled : s.enabled = true) (hnamed : "" ∉ s.parameters)
    (name : List Char) :
    (ofSettings s).isSensitive name = true
      ↔ s.ListsParameter (FormEncoding.decode (String.ofList name)) := by
  have hparameters : (ofSettings s).parameters = s.parameters.map lowercase := by
    rw [ofSettings, if_pos henabled]
  have hlisted : (ofSettings s).parameters.contains
      (lowercase (FormEncoding.decode (String.ofList name))) = true
      ↔ s.ListsParameter (FormEncoding.decode (String.ofList name)) := by
    rw [List.contains_iff_mem, hparameters, List.mem_map]
    rfl
  rw [isSensitive, Bool.and_eq_true, hlisted, Bool.not_eq_true', List.isEmpty_eq_false_iff]
  exact ⟨And.right, fun h => ⟨MaskingSettings.ne_nil_of_listsParameter hnamed h, h⟩⟩

theorem mask_ofSettings (henabled : s.enabled = true) : (ofSettings s).mask = s.maskValue := by
  rw [ofSettings, if_pos henabled]

/-- What is written in a query has no separators that the query did not have. -/
theorem notMem_maskPair (m : Masker) {pair : List Char} {c : Char} (hc : c = '&' ∨ c = '#')
    (hpair : c ∉ pair) :
    c ∉ m.maskPair pair := by
  obtain ⟨name, value, rfl, hname, hvalue⟩ := exists_cut '=' pair
  have hwritten : c ∉ (FormEncoding.encode m.mask).toList := by
    intro hmem
    obtain ⟨-, hamp, -, hhash⟩ := FormEncoding.encode_chars m.mask c hmem
    exact hc.elim hamp hhash
  have hequals : c ≠ '=' := by
    rcases hc with rfl | rfl <;> decide
  rw [maskPair_append hname hvalue]
  split
  · rw [List.mem_append, List.mem_cons]
    rintro (hmem | heq | hmem)
    · exact hpair (List.mem_append_left _ hmem)
    · exact hequals heq
    · exact hwritten hmem
  · exact hpair

theorem isTarget_maskPair (m : Masker) {path : List Char} {pairs : List (List Char)}
    {fragment : List Char} (h : IsTarget path pairs fragment) :
    IsTarget path (pairs.map m.maskPair) fragment := by
  refine { h with pairs := fun masked hmem => ?_ }
  obtain ⟨pair, hpair, rfl⟩ := List.mem_map.1 hmem
  exact ⟨m.notMem_maskPair (.inl rfl) (h.pairs pair hpair).1,
    m.notMem_maskPair (.inr rfl) (h.pairs pair hpair).2⟩

theorem pairMasked_maskPair (henabled : s.enabled = true) (hnamed : "" ∉ s.parameters)
    (pair : List Char) :
    s.PairMasked pair ((ofSettings s).maskPair pair) := by
  obtain ⟨name, value, rfl, hname, hvalue⟩ := exists_cut '=' pair
  have hread : FormEncoding.decode (String.ofList (FormEncoding.encode (ofSettings s).mask).toList)
      = s.maskValue := by
    rw [String.ofList_toList, FormEncoding.decode_encode, mask_ofSettings henabled]
  rw [maskPair_append hname hvalue]
  split
  · rename_i hsensitive
    exact .masked name value _ hname hvalue
      ((isSensitive_iff henabled hnamed name).1 hsensitive) hread
  · rename_i hother
    exact .kept name value hname hvalue (mt (isSensitive_iff henabled hnamed name).2 hother)

/-- A text has a query if no number sign stands in front of one of its question marks. -/
def HasQuery (uri : String) : Prop :=
  ∃ before after, uri.toList = before ++ '?' :: after ∧ '#' ∉ before

/-- **A text has a query exactly if it is a target of some pieces.** -/
theorem hasQuery_iff (uri : String) :
    HasQuery uri ↔ ∃ path pairs fragment, pairs ≠ [] ∧ IsTarget path pairs fragment
      ∧ uri = targetOf path pairs fragment := by
  constructor
  · rintro ⟨before, after, huri, hbefore⟩
    -- the path ends at the first question mark, which need not be the one that is given
    obtain ⟨path, more, hfirst, hpath⟩ := List.eq_append_cons_of_mem (List.mem_append_right before
      (List.mem_singleton_self '?'))
    have hnumber : '#' ∉ path := by
      intro hmem
      have hmem' : '#' ∈ before ++ ['?'] := hfirst ▸ List.mem_append_left _ hmem
      exact (List.mem_append.1 hmem').elim hbefore (by decide)
    obtain ⟨query, fragment, hafter, hquery, hfragment⟩ := exists_cut '#' (more ++ after)
    have hcut : Uri.IsCut path query fragment :=
      { path := fun c hc => ⟨fun heq => hpath (heq ▸ hc), fun heq => hnumber (heq ▸ hc)⟩
        query := hquery
        fragment := hfragment }
    refine ⟨path, query.splitOn '&', fragment, List.splitOn_ne_nil _ _, isTarget_splitOn hcut, ?_⟩
    have htext : uri.toList = path ++ '?' :: query ++ fragment := by
      calc uri.toList = (before ++ ['?']) ++ after := by
            rw [huri, List.append_assoc, List.singleton_append]
          _ = path ++ '?' :: (more ++ after) := by rw [hfirst, List.append_assoc, List.cons_append]
          _ = path ++ '?' :: query ++ fragment := by
            rw [hafter, List.append_assoc, List.cons_append]
    rw [targetOf, List.intercalate_splitOn, ← htext, String.ofList_toList]
  · rintro ⟨path, pairs, fragment, -, htarget, rfl⟩
    refine ⟨path, List.intercalate ['&'] pairs ++ fragment, ?_,
      fun hmem => (htarget.path '#' hmem).2 rfl⟩
    rw [toList_targetOf, List.append_assoc, List.cons_append]

theorem maskUri_of_not_hasQuery (m : Masker) {uri : String} (h : ¬HasQuery uri) :
    m.maskUri uri = uri := by
  rcases m.maskUri_cases uri with hsame | ⟨path, query, fragment, hcut, huri, -⟩
  · exact hsame
  · exact absurd ⟨path, query ++ fragment, huri, fun hmem => (hcut.path '#' hmem).2 rfl⟩ h

/-- The pieces of a target are masked one by one, also if nothing is listed. -/
theorem maskUri_map (m : Masker) {path : List Char} {pairs : List (List Char)}
    {fragment : List Char} (h : IsTarget path pairs fragment) (hpairs : pairs ≠ []) :
    m.maskUri (targetOf path pairs fragment) = targetOf path (pairs.map m.maskPair) fragment := by
  cases hparameters : m.parameters with
  | nil =>
    have hkept : ∀ pair, m.maskPair pair = pair := by
      intro pair
      rw [maskPair, isSensitive, hparameters, List.contains_nil, Bool.and_false,
        if_neg Bool.false_ne_true]
    rw [maskUri, hparameters, List.isEmpty_nil, if_pos rfl, funext hkept, List.map_id']
  | cons first rest => exact maskUri_targetOf (hparameters ▸ rfl) h hpairs

/-- **Masking a target is exact.** A text without a query stays as it is. In any other the path, the
fragment and the number and order of the pieces stay. A piece with a listed name keeps that as it is
written, and its value is read as the mask; every other piece is kept as it is written. So the
masked query is read as what the query says, with the mask for each listed value. -/
theorem maskUri_exact (s : MaskingSettings) (henabled : s.enabled = true)
    (hnamed : "" ∉ s.parameters) (uri : String) :
    (¬HasQuery uri → (ofSettings s).maskUri uri = uri)
      ∧ (HasQuery uri ↔ ∃ path pairs fragment, pairs ≠ [] ∧ IsTarget path pairs fragment
          ∧ uri = targetOf path pairs fragment)
      ∧ ∀ path pairs fragment, pairs ≠ [] → IsTarget path pairs fragment →
        uri = targetOf path pairs fragment →
        ∃ maskedPairs, (ofSettings s).maskUri uri = targetOf path maskedPairs fragment
          ∧ IsTarget path maskedPairs fragment
          ∧ List.Forall₂ s.PairMasked pairs maskedPairs
          ∧ FormEncoding.pairs (List.intercalate ['&'] maskedPairs)
              = (FormEncoding.pairs (List.intercalate ['&'] pairs)).map s.maskRead := by
  refine ⟨maskUri_of_not_hasQuery _, hasQuery_iff uri, ?_⟩
  rintro path pairs fragment hpairs htarget rfl
  have hmasked : List.Forall₂ s.PairMasked pairs (pairs.map (ofSettings s).maskPair) :=
    List.forall₂_map_right_iff.2
      (List.forall₂_same.2 fun pair _ => pairMasked_maskPair henabled hnamed pair)
  have htargetMasked := (ofSettings s).isTarget_maskPair htarget
  exact ⟨_, maskUri_map _ htarget hpairs, htargetMasked, hmasked,
    MaskingSettings.pairs_masked hnamed (fun pair hmem => (htarget.pairs pair hmem).1)
      (fun pair hmem => (htargetMasked.pairs pair hmem).1) hpairs hmasked⟩

/-- A mask of all the signs that mean something in a query, for two parameters. -/
def oddMasking : MaskingSettings :=
  { MaskingSettings.standard with maskValue := "a&b=#% +ü", parameters := ["Access_Token", "code"] }

/-- A query with an encoded name, a name in capitals without a value, and pieces without a name or
without any text. -/
theorem maskUri_exact_oddMask :
    ∃ maskedPairs,
      (ofSettings oddMasking).maskUri "/p?q=a%20b&access%5Ftoken=x=y&&=v&CODE#f?code=z"
          = targetOf "/p".toList maskedPairs "#f?code=z".toList
        ∧ FormEncoding.pairs (List.intercalate ['&'] maskedPairs)
            = [("q", "a b"), ("access_token", "a&b=#% +ü"), ("", "v"), ("CODE", "a&b=#% +ü")] := by
  let pieces := ["q=a%20b".toList, "access%5Ftoken=x=y".toList, [], "=v".toList, "CODE".toList]
  have htarget : IsTarget "/p".toList pieces "#f?code=z".toList :=
    { path := by simp
      pairs := by simp [pieces]
      fragment := .inr ⟨"f?code=z".toList, by decide⟩ }
  obtain ⟨-, -, hmasked⟩ :=
    maskUri_exact oddMasking rfl (by decide) "/p?q=a%20b&access%5Ftoken=x=y&&=v&CODE#f?code=z"
  obtain ⟨maskedPairs, huri, -, -, hread⟩ := hmasked _ pieces _ (by decide) htarget (by decide)
  have hsaid : FormEncoding.pairs (List.intercalate ['&'] pieces)
      = [("q", "a b"), ("access_token", "x=y"), ("", "v"), ("CODE", "")] := by
    cbv
  refine ⟨maskedPairs, huri, ?_⟩
  rw [hread, hsaid]
  decide

end Masker
end Traffic
end Gatehouse
