/-
To mask twice is to mask once.

What the first masking leaves, the second one finds as it would put it. A header with a listed name
is there once and has the mask already; a query pair with a listed name keeps that name, whatever
the mask looks like as it is written; and a path addresses in a masked document what it addressed in
the document before, or something inside what is replaced, where there is nothing any more. The one
thing in between is that a masked body is written and read again (`maskBody_maskBody`): it is read
as what it was if the reals in it are, which not every real is.
-/
import Gatehouse.Proofs.Json.ReadBack
import Gatehouse.Proofs.Traffic.QueryMasking
import Gatehouse.Proofs.Traffic.Replacement

set_option autoImplicit false

namespace Gatehouse

namespace Json

variable {text : String} {chosen : List Nat → Bool}

/-- Replacing values by a text leaves a document within its depth. -/
theorem Within.replaceAt {depth : Nat} {d : Json} (h : Within depth d) (text : String)
    (chosen : List Nat → Bool) :
    Within depth (d.replaceAt text chosen) := by
  induction h generalizing chosen with
  | null depth => unfold Json.replaceAt; split; exacts [.string _ _, .null _]
  | bool depth value => unfold Json.replaceAt; split; exacts [.string _ _, .bool _ _]
  | number depth n hfits => unfold Json.replaceAt; split; exacts [.string _ _, .number _ _ hfits]
  | string depth s => unfold Json.replaceAt; split; exacts [.string _ _, .string _ _]
  | array depth items _ ih =>
    cases hhere : chosen [] with
    | true =>
      rw [replaceAt_of_chosen hhere]
      exact .string _ _
    | false =>
      rw [replaceAt_array hhere]
      refine .array _ _ fun item hitem => ?_
      obtain ⟨i, hi, rfl⟩ := List.mem_mapIdx.1 hitem
      exact ih _ (List.getElem_mem hi) _
  | object depth fields hnames _ ih =>
    cases hhere : chosen [] with
    | true =>
      rw [replaceAt_of_chosen hhere]
      exact .string _ _
    | false =>
      rw [replaceAt_object hhere]
      refine .object _ _ ?_ fun f hf => ?_
      · have hkeys : Table.keys (fields.mapIdx fun i f =>
            (f.1, f.2.replaceAt text fun position => chosen (i :: position)))
              = Table.keys fields := by
          refine List.ext_getElem? fun i => ?_
          simp [Table.keys, Function.comp_def]
        rwa [hkeys]
      · obtain ⟨i, hi, rfl⟩ := List.mem_mapIdx.1 hf
        exact ih _ (List.getElem_mem hi) _

end Json

namespace Traffic.Masker

variable (m : Masker)

/-! ## Headers -/

/-- What is left of the headers has the mask under each listed name, which stands there once. -/
theorem maskHeadersFrom_maskHeadersFrom (seen : List String) (headers : List (String × String)) :
    m.maskHeadersFrom seen (m.maskHeadersFrom seen headers) = m.maskHeadersFrom seen headers := by
  induction headers generalizing seen with
  | nil => rfl
  | cons header rest ih =>
    obtain ⟨name, value⟩ := header
    by_cases hlisted : m.headers.contains (asciiLowercase name) = true
    · by_cases hseen : seen.contains (asciiLowercase name) = true
      · rw [maskHeadersFrom, if_pos hlisted, if_pos hseen, ih]
      · rw [maskHeadersFrom, if_pos hlisted, if_neg hseen, maskHeadersFrom, if_pos hlisted,
          if_neg hseen, ih]
    · rw [maskHeadersFrom, if_neg hlisted, maskHeadersFrom, if_neg hlisted, ih]

theorem maskHeaders_maskHeaders (headers : List (String × String)) :
    m.maskHeaders (m.maskHeaders headers) = m.maskHeaders headers :=
  m.maskHeadersFrom_maskHeadersFrom [] headers

/-! ## Targets -/

/-- A masked pair has its name, so it is masked again with the same mask. -/
theorem maskPair_maskPair (pair : List Char) : m.maskPair (m.maskPair pair) = m.maskPair pair := by
  obtain ⟨name, value, rfl, hname, hvalue⟩ := exists_cut '=' pair
  by_cases hsensitive : m.isSensitive name = true
  · rw [maskPair_of_value hsensitive hname hvalue,
      maskPair_of_value hsensitive hname (.inr ⟨_, rfl⟩)]
  · have hkept : m.maskPair (name ++ value) = name ++ value := by
      rw [maskPair_append hname hvalue, if_neg hsensitive]
    rw [hkept, hkept]

theorem maskUri_maskUri (uri : String) : m.maskUri (m.maskUri uri) = m.maskUri uri := by
  by_cases hquery : HasQuery uri
  · obtain ⟨path, pairs, fragment, hpairs, htarget, rfl⟩ := (hasQuery_iff uri).1 hquery
    rw [m.maskUri_map htarget hpairs,
      m.maskUri_map (m.isTarget_maskPair htarget) (by simpa using hpairs), List.map_map]
    exact congrArg (targetOf path · fragment)
      (List.map_congr_left fun pair _ => m.maskPair_maskPair pair)
  · rw [m.maskUri_of_not_hasQuery hquery, m.maskUri_of_not_hasQuery hquery]

/-! ## Bodies -/

/-- A masked document has nothing left to mask. -/
theorem maskDocument_maskDocument (d : Json) :
    m.maskDocument (m.maskDocument d) = m.maskDocument d := by
  calc m.maskDocument (m.maskDocument d)
      = m.maskDocument (d.replaceAt m.mask fun position => decide (m.Addresses d position)) := by
        rw [m.maskDocument_eq_replaceAt d]
    _ = d.replaceAt m.mask fun position =>
      decide (m.Addresses d position) || decide (m.Addresses d position) :=
        JsonPath.foldl_mask_replaceAt m.mask m.paths d _
    _ = m.maskDocument d := by
        simp only [Bool.or_self]
        exact (m.maskDocument_eq_replaceAt d).symm

/-- A masked document is read back as what it is, if its reals are. -/
theorem ofBytes?_maskDocument {body : Bytes} {d : Json} (hbody : Json.ofBytes? body = some d)
    (hreals : (m.maskDocument d).RealsKept) :
    Json.ofBytes? (Bytes.ofString (m.maskDocument d).render) = some (m.maskDocument d) := by
  have hwithin : Json.Within Json.maxDepth (m.maskDocument d) := by
    rw [maskDocument_eq_replaceAt]
    exact (Json.within_of_ofBytes? hbody).replaceAt _ _
  rw [Json.ofBytes?_ofString, Json.ofString?_render hwithin, Json.reread_eq_self hwithin hreals]

theorem maskBody_maskBody {body : Bytes}
    (hreals : ∀ d, Json.ofBytes? body = some d → (m.maskDocument d).RealsKept) :
    m.maskBody (m.maskBody body) = m.maskBody body := by
  by_cases hnothing : (m.paths.isEmpty || body.isEmpty) = true
  · have hkept : m.maskBody body = body := by rw [maskBody, if_pos hnothing]
    rw [hkept, hkept]
  cases hbody : Json.ofBytes? body with
  | none =>
    have hkept : m.maskBody body = body := by rw [maskBody, if_neg hnothing, hbody]
    rw [hkept, hkept]
  | some d =>
    have hmasked : m.maskBody body = Bytes.ofString (m.maskDocument d).render := by
      rw [maskBody, if_neg hnothing, hbody]
    rw [hmasked, maskBody]
    split
    · rfl
    · rw [m.ofBytes?_maskDocument hbody (hreals d hbody)]
      dsimp only
      rw [maskDocument_maskDocument]

/-! ## Exchanges -/

/-- **To mask an exchange twice is to mask it once,** for any settings: any mask, any listed names
and any paths, and whether the body is there as a whole or not. A masked body is read again in
between, so the reals that are left in it have to be read back as they were; integers always are. -/
theorem maskExchange_maskExchange (s : MaskingSettings) (e : Exchange)
    (hreals : ∀ d, Json.ofBytes? e.body = some d → ((ofSettings s).maskDocument d).RealsKept) :
    (ofSettings s).maskExchange ((ofSettings s).maskExchange e)
      = (ofSettings s).maskExchange e := by
  generalize ofSettings s = m at hreals ⊢
  have hbody : (m.maskExchange (m.maskExchange e)).body = (m.maskExchange e).body := by
    by_cases hdropped : (e.truncated && !m.paths.isEmpty) = true
    · simp [maskExchange, hdropped]
    · simp [maskExchange, hdropped, m.maskBody_maskBody hreals]
  calc m.maskExchange (m.maskExchange e)
      = { m.maskExchange e with
          headers := m.maskHeaders (m.maskHeaders e.headers)
          uri := m.maskUri (m.maskUri e.uri)
          body := (m.maskExchange (m.maskExchange e)).body } := rfl
    _ = m.maskExchange e := by
        rw [maskHeaders_maskHeaders, maskUri_maskUri, hbody]
        rfl

/-- A mask that is a listed name itself and has the signs of a query in it. -/
def selfMasking : MaskingSettings :=
  { enabled := true, maskValue := "token=1&token", headers := ["Token"],
    parameters := ["token=1&token", "token"]
    jsonBodyFields := ["$.user", "$.user.name", "$.cards[*]", "$.cards[*].number"] }

/-- A document with a user, two cards and a rate. -/
def cardPayment : Json :=
  .object [("rate", .number (.real false 4503599627370496 (-54))),
    ("user", .object [("name", .string "u")]),
    ("cards", .array [.object [("number", .nat 1)], .nat 2])]

/-- A message with all of them in it, and with listed names that come more than once. -/
def cardOrder : Exchange where
  origin := .inbound
  side := .request
  method := .get
  uri := "/pay?Token&token=x=y&q=1#token=z"
  status := none
  headers := [("token", "a"), ("accept", "b"), ("Token", "c")]
  body := Bytes.ofString cardPayment.render
  truncated := false
  elapsedMicros := none
  requestId := none

theorem ofBytes?_cardOrder : Json.ofBytes? cardOrder.body = some cardPayment := by
  have hnat : ∀ n : Nat, n ≤ 2 → ∀ depth, Json.Within depth (.nat n) := fun n hn depth =>
    .number _ _ ⟨by omega, by rw [Json.maxSignificand]; omega⟩
  have hwithin : Json.Within 3 cardPayment := by
    refine .object 2 _ (by decide) ?_
    simp only [List.forall_mem_cons, List.not_mem_nil, false_imp_iff, implies_true, and_true]
    refine ⟨.number _ _ ⟨by decide, by decide⟩,
      .object 1 _ (by decide) (List.forall_mem_singleton.2 (.string _ _)),
      .array 1 _
        (List.forall_mem_cons.2
          ⟨.object 0 _ (by decide) (List.forall_mem_singleton.2 (hnat 1 (by decide) _)),
        List.forall_mem_singleton.2 (hnat 2 (by decide) _)⟩)⟩
  have hreals : cardPayment.RealsKept := .of_forall (by decide +kernel)
  have hmax : Json.Within Json.maxDepth cardPayment := hwithin.mono (by decide)
  exact (Json.ofBytes?_ofString _).trans ((Json.ofString?_render hmax).trans
    (congrArg some (Json.reread_eq_self hmax hreals)))

theorem maskExchange_maskExchange_cardOrder :
    ((ofSettings selfMasking).maskExchange cardOrder).headers
      = [("token", "token=1&token"), ("accept", "b")]
      ∧ ((ofSettings selfMasking).maskExchange cardOrder).uri
        = "/pay?Token=token%3D1%26token&token=token%3D1%26token&q=1#token=z"
      ∧ (ofSettings selfMasking).maskExchange ((ofSettings selfMasking).maskExchange cardOrder)
        = (ofSettings selfMasking).maskExchange cardOrder := by
  refine ⟨by decide, by decide, maskExchange_maskExchange selfMasking cardOrder fun d hd => ?_⟩
  obtain rfl := Option.some.inj (ofBytes?_cardOrder.symm.trans hd)
  exact .of_forall (by decide +kernel)

end Traffic.Masker
end Gatehouse
