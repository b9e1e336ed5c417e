/-
Which requests pass without their breaker.

A request is unguarded when the policy that it resolves to says so. For a rule set made of
configuration entries there are two ways to such a policy: an entry that lists the request and
whose own modifiers leave it unguarded, or no rule at all and a default policy that is
unguarded. What an entry lists is said in the documented pattern language, in which stars are
wider than in matching; since nothing is matched that is not in it, no request gets out by a
match that nobody has written down.

The other half is that entries do not reach into each other. Whatever the modifiers of an entry are,
a request that it does not list is treated the same.
-/
import Gatehouse.Proofs.Routing.Declarations
import Gatehouse.Proofs.Routing.PathLanguage

set_option autoImplicit false

namespace Gatehouse.Routing

open Gatehouse.Http

/-! ## What an entry says -/

namespace RouteEntry

/-- The modifiers of an entry leave its requests unguarded: one of them takes the breaker away, and
none asks for it. -/
def LeavesUnprotected (e : RouteEntry) : Prop :=
  (e.permitAll = true ∨ e.protectedByBreaker = some false) ∧ e.protectedByBreaker ≠ some true

/-- An entry is for a method: it names none, or this one after its ASCII letters are raised. -/
def IsFor (e : RouteEntry) (method : Method) : Prop :=
  e.method = none
    ∨ ∃ text, e.method = some text ∧ String.ofList (text.toList.map Char.toUpper) = method.token

/-- **An entry lists a request:** it is for the method, and the path is in the documented language
of one of its patterns. -/
def Lists (e : RouteEntry) (method : Method) (path : String) : Prop :=
  e.IsFor method
    ∧ ∃ pattern ∈ e.patterns, PatternLanguage anyRun (Bytes.ofString pattern) (Bytes.ofString path)

/-- Two entries for the same requests, which may differ in their modifiers. -/
structure SameBatch (e other : RouteEntry) : Prop where
  anyRequest : other.anyRequest = e.anyRequest
  method : other.method = e.method
  patterns : other.patterns = e.patterns

theorem SameBatch.lists_iff {e other : RouteEntry} (h : e.SameBatch other) (method : Method)
    (path : String) :
    other.Lists method path ↔ e.Lists method path := by
  rw [Lists, Lists, IsFor, IsFor, h.method, h.patterns]

/-- The last word on protection in an entry is its own, then that of `permitAll`, then
that of the policy. -/
theorem protectedByBreaker_modify (e : RouteEntry) (p : RoutePolicy) :
    (p.modify e.modifiers).protectedByBreaker
      = e.protectedByBreaker.getD (!e.permitAll && p.protectedByBreaker) := by
  obtain ⟨anyRequest, method, patterns, permitAll, breakerName, protectedByBreaker, idempotent⟩ := e
  unfold modifiers RoutePolicy.modify
  -- neither idempotency nor the name of the breaker matters here
  cases permitAll <;> rcases protectedByBreaker with _ | _ | _ <;>
    rcases idempotent with _ | _ | _ <;> cases breakerName <;> rfl

theorem unprotected_fresh_iff (e : RouteEntry) :
    (RoutePolicy.fresh.modify e.modifiers).protectedByBreaker = false ↔ e.LeavesUnprotected := by
  rw [protectedByBreaker_modify, LeavesUnprotected]
  rcases e.protectedByBreaker with _ | _ | _
  · simp [RoutePolicy.fresh]
  · simp
  · simp

/-! ## The rules of an entry -/

theorem token_of_ofConfigured? {text : String} {method : Method}
    (h : Method.ofConfigured? text = some method) :
    String.ofList (text.toList.map Char.toUpper) = method.token := by
  unfold Method.ofConfigured? Method.ofString? at h
  split at h
  · cases h
  · rw [← Option.some.inj h]

theorem Declares.isAnyRequest_eq {e : RouteEntry} {d : Declaration} (h : e.Declares d) :
    d.isAnyRequest = e.anyRequest := by
  cases h with
  | anyRequest hany => rw [hany]; rfl
  | anyMethod hany => rw [hany]; rfl
  | oneMethod hany => rw [hany]; rfl

/-- What is matched by a pattern is in its language. -/
theorem language_of_matches {pattern path : String}
    (h : (PathPattern.ofString pattern).matches path = true) :
    PatternLanguage anyRun (Bytes.ofString pattern) (Bytes.ofString path) :=
  .anyRun_of_literalFirst ((PathPattern.matches_eq_true_iff pattern path).1 h)

/-- **A rule that matches a request** comes from an entry that lists it, and has the policy that the
modifiers of this entry make. -/
theorem Declares.of_matches {e : RouteEntry} {d : Declaration} (h : e.Declares d) {rule : Rule}
    (hrule : rule ∈ d.rules) {method : Method} {path : String}
    (hmatches : rule.matches method path = true) :
    e.Lists method path ∧ rule.policy = RoutePolicy.fresh.modify e.modifiers := by
  cases h with
  | anyRequest => exact absurd hrule List.not_mem_nil
  | anyMethod _ _ hmethod =>
    obtain ⟨pattern, hpattern, rfl⟩ := List.mem_map.1 hrule
    have hpath := (Bool.and_eq_true_iff.1 hmatches).2
    exact ⟨⟨.inl hmethod, pattern, hpattern, language_of_matches hpath⟩, rfl⟩
  | oneMethod _ _ text configured hmethod hread =>
    obtain ⟨pattern, hpattern, rfl⟩ := List.mem_map.1 hrule
    obtain ⟨hsame, hpath⟩ := Bool.and_eq_true_iff.1 hmatches
    have hconfigured : configured = method := beq_iff_eq.1 hsame
    rw [← hconfigured]
    exact ⟨⟨.inr ⟨text, hmethod, token_of_ofConfigured? hread⟩, pattern, hpattern,
      language_of_matches hpath⟩, rfl⟩

/-- No rule of an entry matches a request that the entry does not list. -/
theorem Declares.find?_eq_none {e : RouteEntry} {d : Declaration} (h : e.Declares d)
    {method : Method} {path : String} (hlists : ¬e.Lists method path) :
    d.rules.find? (fun rule => rule.matches method path) = none :=
  List.find?_eq_none.2 fun _ hrule hmatches => hlists (h.of_matches hrule hmatches).1

/-- Other modifiers make a declaration of the same kind. -/
theorem Declares.sameBatch {e other : RouteEntry} {d : Declaration} (h : e.Declares d)
    (hsame : e.SameBatch other) : other.Declares { d with modifiers := other.modifiers } := by
  obtain ⟨hany, hmethod, hpatterns⟩ := hsame
  cases h with
  | anyRequest ha hp => exact .anyRequest (hany.trans ha) (hpatterns.trans hp)
  | anyMethod ha hp hm =>
    rw [← hpatterns]
    exact .anyMethod (hany.trans ha) (hpatterns ▸ hp) (hmethod.trans hm)
  | oneMethod ha hp text configured hm hread =>
    rw [← hpatterns]
    exact .oneMethod (hany.trans ha) (hpatterns ▸ hp) text configured (hmethod.trans hm) hread

end RouteEntry

/-! ## The default policy -/

/-- **The default policy that entries leave:** changed by the first one for any request,
if there is one. -/
def defaultPolicyOf (defaults : RoutePolicy) (entries : List RouteEntry) : RoutePolicy :=
  match entries.find? (·.anyRequest) with
  | none => defaults
  | some e => defaults.modify e.modifiers

theorem exists_entry_of_mem {entries : List RouteEntry} {ds : List Declaration}
    (h : List.Forall₂ RouteEntry.Declares entries ds) {d : Declaration} (hd : d ∈ ds) :
    ∃ e ∈ entries, e.Declares d := by
  induction h with
  | nil => cases hd
  | @cons e _ entries _ hfirst _ ih =>
    rcases List.mem_cons.1 hd with rfl | hd
    · exact ⟨e, List.mem_cons_self, hfirst⟩
    · obtain ⟨e, he, hdeclares⟩ := ih hd
      exact ⟨e, List.mem_cons_of_mem _ he, hdeclares⟩

/-- The declarations of entries around one of them are those around its declaration. -/
theorem split_declares {before after : List RouteEntry} {e : RouteEntry} {ds : List Declaration}
    (h : List.Forall₂ RouteEntry.Declares (before ++ e :: after) ds) :
    ∃ ds₁ d ds₂, ds = ds₁ ++ d :: ds₂ ∧ List.Forall₂ RouteEntry.Declares before ds₁ ∧ e.Declares d
      ∧ List.Forall₂ RouteEntry.Declares after ds₂ := by
  induction before generalizing ds with
  | nil =>
    cases h with
    | @cons _ d _ ds₂ hd hafter => exact ⟨[], d, ds₂, rfl, .nil, hd, hafter⟩
  | cons first before ih =>
    cases h with
    | @cons _ d₀ _ ds hfirst hrest =>
      obtain ⟨ds₁, d, ds₂, rfl, hbefore, hd, hafter⟩ := ih hrest
      exact ⟨d₀ :: ds₁, d, ds₂, rfl, .cons hfirst hbefore, hd, hafter⟩

theorem countP_of_declares {entries : List RouteEntry} {ds : List Declaration}
    (h : List.Forall₂ RouteEntry.Declares entries ds) :
    entries.countP (·.anyRequest) = ds.countP (·.isAnyRequest) := by
  induction h with
  | nil => rfl
  | cons hd _ ih => rw [List.countP_cons, List.countP_cons, ih, hd.isAnyRequest_eq]

theorem Declaration.changeDefault_of_not_anyRequest {d : Declaration} (h : d.isAnyRequest = false)
    (p : RoutePolicy) : d.changeDefault p = p := by
  obtain ⟨matcher, modifiers⟩ := d
  cases matcher with
  | anyRequest => cases h
  | patterns => rfl

theorem foldl_changeDefault_of_countP_eq_zero {ds : List Declaration}
    (h : ds.countP (·.isAnyRequest) = 0) (p : RoutePolicy) :
    ds.foldl (fun p d => d.changeDefault p) p = p := by
  induction ds with
  | nil => rfl
  | cons d ds ih =>
    have hnone := List.countP_eq_zero.1 h
    rw [List.foldl_cons, Declaration.changeDefault_of_not_anyRequest
      (Bool.eq_false_iff.2 (hnone d List.mem_cons_self))]
    exact ih (List.countP_eq_zero.2 fun x hx => hnone x (List.mem_cons_of_mem d hx))

theorem foldl_changeDefault_eq {entries : List RouteEntry} {ds : List Declaration}
    (h : List.Forall₂ RouteEntry.Declares entries ds) (hone : ds.countP (·.isAnyRequest) ≤ 1)
    (defaults : RoutePolicy) :
    ds.foldl (fun p d => d.changeDefault p) defaults = defaultPolicyOf defaults entries := by
  induction h with
  | nil => rfl
  | @cons e d entries ds hd _ ih =>
    have hany := hd.isAnyRequest_eq
    rw [List.countP_cons] at hone
    rw [List.foldl_cons, defaultPolicyOf, List.find?_cons]
    cases hentry : e.anyRequest with
    | false =>
      rw [hentry] at hany
      rw [Declaration.changeDefault_of_not_anyRequest hany]
      exact ih (by omega)
    | true =>
      -- this is the only one, and the rest leaves the policy as it is
      rw [hentry] at hany
      rw [hany, if_pos rfl] at hone
      rw [foldl_changeDefault_of_countP_eq_zero (by omega)]
      cases hd with
      | anyRequest => rfl
      | anyMethod => cases hany
      | oneMethod => cases hany

/-! ## Resolving -/

theorem RuleSet.resolve_cases (set : RuleSet) (method : Method) (path : String) :
    (∃ rule ∈ set.rules, rule.matches method path = true ∧ set.resolve method path = rule.policy)
      ∨ ((∀ rule ∈ set.rules, rule.matches method path = false)
        ∧ set.resolve method path = set.defaultPolicy) := by
  unfold RuleSet.resolve
  cases hfound : set.rules.find? fun rule => rule.matches method path with
  | some rule =>
    have hmatches := List.find?_some hfound
    exact .inl ⟨rule, List.mem_of_find?_eq_some hfound, hmatches, rfl⟩
  | none =>
    exact .inr ⟨fun rule hrule => Bool.eq_false_iff.2 (List.find?_eq_none.1 hfound rule hrule), rfl⟩

/-- Declarations without a match for a request may be exchanged for others without one, if both
leave the default policy alone. -/
theorem resolve_congr {before after : List Declaration} {d other : Declaration} {method : Method}
    {path : String} (hd : d.rules.find? (fun rule => rule.matches method path) = none)
    (hother : other.rules.find? (fun rule => rule.matches method path) = none)
    (hany : d.isAnyRequest = false) (hotherAny : other.isAnyRequest = false)
    (defaults : RoutePolicy) :
    RuleSet.resolve
        { rules := (before ++ other :: after).flatMap Declaration.rules
          defaultPolicy :=
            (before ++ other :: after).foldl (fun p d => d.changeDefault p) defaults }
        method path
      = RuleSet.resolve
        { rules := (before ++ d :: after).flatMap Declaration.rules
          defaultPolicy := (before ++ d :: after).foldl (fun p d => d.changeDefault p) defaults }
        method path := by
  simp only [RuleSet.resolve, List.flatMap_append, List.flatMap_cons, List.find?_append, hd, hother,
    Option.none_or, List.foldl_append, List.foldl_cons,
    Declaration.changeDefault_of_not_anyRequest hany,
    Declaration.changeDefault_of_not_anyRequest hotherAny]

/-- **The modifiers of an entry are nothing to a request that it does not list.** -/
theorem resolve_of_sameBatch {defaults : RoutePolicy} {before after : List RouteEntry}
    {e other : RouteEntry} {set : RuleSet}
    (hset : RuleSet.ofEntries defaults (before ++ e :: after) = .ok set)
    (hany : e.anyRequest = false) (hsame : e.SameBatch other) {method : Method} {path : String}
    (hlists : ¬e.Lists method path) :
    ∃ changed, RuleSet.ofEntries defaults (before ++ other :: after) = .ok changed
      ∧ changed.resolve method path = set.resolve method path := by
  obtain ⟨_, hds, hmade⟩ := RuleSet.ofEntries_eq_ok_iff.1 hset
  obtain ⟨before', d, after', rfl, hbefore, hd, hafter⟩ := split_declares hds
  obtain ⟨hwell, hone, rfl⟩ := RuleSet.ofDeclarations_eq_ok_iff.1 hmade
  have hother := hd.sameBatch hsame
  have hnotAny : d.isAnyRequest = false := hd.isAnyRequest_eq.trans hany
  have hdeclared := List.rel_append hbefore (.cons hother hafter)
  -- faults are a matter of the matcher, and that is the same
  have hwellOther : ∀ x ∈ before' ++ { d with modifiers := other.modifiers } :: after',
      x.WellFormed := by
    intro x hx
    rcases List.mem_append.1 hx with hx | hx
    · exact hwell x (List.mem_append_left _ hx)
    · rcases List.mem_cons.1 hx with rfl | hx
      · exact hwell d (List.mem_append_right _ List.mem_cons_self)
      · exact hwell x (List.mem_append_right _ (List.mem_cons_of_mem d hx))
  have honeOther :
      (before' ++ { d with modifiers := other.modifiers } :: after').countP
        (·.isAnyRequest) ≤ 1 := by
    rw [List.countP_append, List.countP_cons] at hone ⊢
    exact hone
  refine ⟨_, RuleSet.ofEntries_eq_ok_iff.2 ⟨_, hdeclared,
    RuleSet.ofDeclarations_eq_ok_iff.2 ⟨hwellOther, honeOther, rfl⟩⟩, ?_⟩
  exact resolve_congr (hd.find?_eq_none hlists)
    (hother.find?_eq_none fun h => hlists ((hsame.lists_iff method path).1 h))
    hnotAny hnotAny defaults

/-- **No request gets past its breaker by accident.** If entries make a rule set and a request
resolves to an unguarded policy, then this is the policy of an entry that lists the request and
leaves it unguarded by its own modifiers, or else no rule matches and the default policy is
unguarded, as it is given or as the one entry for any request has left it. And the modifiers of an
entry have no influence on a request that it does not list. -/
theorem exempted_or_default_of_unprotected (defaults : RoutePolicy) (entries : List RouteEntry)
    (set : RuleSet) (hset : RuleSet.ofEntries defaults entries = .ok set) (method : Method)
    (path : String) :
    ((set.resolve method path).protectedByBreaker = false →
        (∃ e ∈ entries, e.LeavesUnprotected ∧ e.Lists method path
          ∧ set.resolve method path = RoutePolicy.fresh.modify e.modifiers)
        ∨ ((∀ rule ∈ set.rules, rule.matches method path = false)
          ∧ entries.countP (·.anyRequest) ≤ 1
          ∧ set.defaultPolicy = defaultPolicyOf defaults entries
          ∧ set.defaultPolicy.protectedByBreaker = false))
      ∧ ∀ before e other after, entries = before ++ e :: after → e.anyRequest = false →
        e.SameBatch other →
        ¬e.Lists method path →
        ∃ changed, RuleSet.ofEntries defaults (before ++ other :: after) = .ok changed
          ∧ changed.resolve method path = set.resolve method path := by
  obtain ⟨ds, hds, hmade⟩ := RuleSet.ofEntries_eq_ok_iff.1 hset
  obtain ⟨hwell, hone, rfl⟩ := RuleSet.ofDeclarations_eq_ok_iff.1 hmade
  constructor
  · intro hoff
    rcases RuleSet.resolve_cases
        { rules := ds.flatMap Declaration.rules
          defaultPolicy := ds.foldl (fun p d => d.changeDefault p) defaults } method path with
      ⟨rule, hrule, hmatches, hresolve⟩ | ⟨hnone, hresolve⟩
    · obtain ⟨d, hd, hrule⟩ := List.mem_flatMap.1 hrule
      obtain ⟨e, he, hdeclares⟩ := exists_entry_of_mem hds hd
      obtain ⟨hlists, hpolicy⟩ := hdeclares.of_matches hrule hmatches
      rw [hresolve, hpolicy] at hoff
      exact .inl ⟨e, he, e.unprotected_fresh_iff.1 hoff, hlists, hresolve.trans hpolicy⟩
    · rw [hresolve] at hoff
      refine .inr ⟨hnone, ?_, foldl_changeDefault_eq hds hone defaults, hoff⟩
      rwa [countP_of_declares hds]
  · rintro before e other after rfl hany hsame hlists
    exact resolve_of_sameBatch hset hany hsame hlists

def postedOrders (guarded : Option Bool) : RouteEntry :=
  { RouteEntry.blank with
    method := some "post", patterns := ["/orders/**"], protectedByBreaker := guarded }

/-- Posted orders, a health check for everybody, and nothing else without a breaker. -/
def shopEntries : List RouteEntry :=
  [postedOrders (some false),
    { RouteEntry.blank with patterns := ["/health"], permitAll := true },
    { RouteEntry.blank with anyRequest := true, idempotent := some true }]

def shopRules : RuleSet :=
  { rules :=
      [{ method := some ⟨"POST"⟩, pattern := PathPattern.ofString "/orders/**",
         policy := { RoutePolicy.fresh with protectedByBreaker := false } },
        { method := none, pattern := PathPattern.ofString "/health",
          policy := { RoutePolicy.fresh with protectedByBreaker := false } }]
    defaultPolicy := { RoutePolicy.fresh with idempotent := true } }

/-- The health check is unguarded, as the second entry says; and the first entry may say what it
likes about orders that are posted. -/
theorem exempted_or_default_of_unprotected_health :
    RuleSet.ofEntries RoutePolicy.fresh shopEntries = .ok shopRules
      ∧ (shopRules.resolve .get "/health").protectedByBreaker = false
      ∧ (∃ e ∈ shopEntries, e.LeavesUnprotected ∧ e.Lists .get "/health")
      ∧ ∃ changed,
        RuleSet.ofEntries RoutePolicy.fresh (postedOrders none :: shopEntries.tail) = .ok changed
        ∧ (changed.resolve .get "/health").protectedByBreaker = false := by
  have hset : RuleSet.ofEntries RoutePolicy.fresh shopEntries = .ok shopRules := by cbv
  have hhealth : shopRules.rules.find? (fun rule => rule.matches .get "/health")
      = shopRules.rules[1]? := by cbv
  have hoff : (shopRules.resolve .get "/health").protectedByBreaker = false := by
    rw [RuleSet.resolve, hhealth]
    rfl
  obtain ⟨hexempt, hapart⟩ :=
    exempted_or_default_of_unprotected RoutePolicy.fresh shopEntries shopRules hset .get "/health"
  refine ⟨hset, hoff, ?_, ?_⟩
  · rcases hexempt hoff with ⟨e, he, hleaves, hlists, -⟩ | ⟨hnone, -⟩
    · exact ⟨e, he, hleaves, hlists⟩
    · have hmissed : shopRules.rules.find? (fun rule => rule.matches .get "/health") = none :=
        List.find?_eq_none.2 fun rule hrule => by rw [hnone rule hrule]; exact Bool.false_ne_true
      cases hmissed.symm.trans hhealth
  · obtain ⟨changed, hchanged, hsame⟩ :=
      hapart [] (postedOrders (some false)) (postedOrders none) shopEntries.tail rfl rfl
        ⟨rfl, rfl, rfl⟩ (by
        rintro ⟨hmethod | ⟨text, hmethod, htoken⟩, -⟩
        · cases hmethod
        · rw [← Option.some.inj hmethod] at htoken
          exact absurd htoken (by decide))
    exact ⟨changed, hchanged, by rwa [hsame]⟩

end Gatehouse.Routing
