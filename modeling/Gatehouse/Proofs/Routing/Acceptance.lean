/-
Which configuration entries make a rule set, and which one.

Reading entries has two ways to fail. Some faults are seen at the entry and end the reading there,
others are kept by the builder and come out when it is asked for the rule set. For acceptance this
makes no difference: a list is accepted exactly if every entry is well-formed by itself and at most
one is for any request (`RuleSet.ofEntries_accepts_iff`).

What an accepted list makes is said field by field. An entry overwrites a policy
(`RouteEntry.overwrite`): its own word on a field stands before that of `permitAll`, and that before
the policy. The rules are those of the entries, one after the other, each with a fresh policy
overwritten; the defaults are overwritten by the entry for any request only.

The work has been done for declarations. An entry stands for one declaration if it is well-formed
and for none with a rule set otherwise (`RouteEntry.declares_wellFormed_iff`), and the rest is to
read declarations back as entries.
-/
import Gatehouse.Proofs.Routing.Exemptions

set_option autoImplicit false

namespace Gatehouse

open Gatehouse.Http

/-! ## Methods -/

namespace Http.Method

/-- A method that is a token: there is something of it, and all of that may stand in a token. -/
structure IsToken (m : Method) : Prop where
  nonempty : m.token ≠ ""
  token : ∀ c ∈ m.token.toList, isTokenChar c = true

theorem ofString?_eq_some_iff {s : String} {m : Method} :
    ofString? s = some m ↔ m.IsToken ∧ m = ⟨s⟩ := by
  have hrefused : (s.toList.isEmpty || !s.toList.all isTokenChar) = true ↔ ¬IsToken ⟨s⟩ := by
    rw [Bool.or_eq_true, List.isEmpty_iff, String.toList_eq_nil_iff, Bool.not_eq_true',
      List.all_eq_false]
    constructor
    · rintro (hempty | ⟨c, hc, hother⟩) h
      · exact h.nonempty hempty
      · exact hother (h.token c hc)
    · intro h
      by_contra hnone
      obtain ⟨hnonempty, hall⟩ := not_or.1 hnone
      exact h ⟨hnonempty, fun c hc => by_contra fun hother => hall ⟨c, hc, hother⟩⟩
  unfold ofString?
  split
  · rename_i hs
    refine iff_of_false nofun ?_
    rintro ⟨htoken, rfl⟩
    exact hrefused.1 hs htoken
  · rename_i hs
    rw [hrefused, not_not] at hs
    rw [Option.some_inj]
    exact ⟨fun heq => ⟨heq ▸ hs, heq.symm⟩, fun h => h.2.symm⟩

end Http.Method

namespace Routing

/-! ## Entries by themselves -/

namespace RouteEntry

/-- The method that an entry names, with its ASCII letters raised. -/
def methodNamed (e : RouteEntry) : Option Method :=
  e.method.map fun text => ⟨String.ofList (text.toList.map Char.toUpper)⟩

/-- **A well-formed entry** is for any request and lists no patterns, or it lists some that begin
with a slash, for all methods or for one that is a token. -/
inductive WellFormed (e : RouteEntry) : Prop where
  | anyRequest (hany : e.anyRequest = true) (hpatterns : e.patterns = [])
  | patterns (hany : e.anyRequest = false) (hpatterns : e.patterns ≠ [])
      (hrooted : ∀ pattern ∈ e.patterns, ∃ rest, pattern.toList = '/' :: rest)
      (hmethod : ∀ method, e.methodNamed = some method → method.IsToken)

/-- **An entry overwrites a policy:** `permitAll` first, and then the fields that the entry has. -/
def overwrite (e : RouteEntry) (p : RoutePolicy) : RoutePolicy :=
  { breakerName := e.breakerName.getD p.breakerName
    protectedByBreaker :=
      e.protectedByBreaker.getD (if e.permitAll then false else p.protectedByBreaker)
    idempotent := e.idempotent.getD (if e.permitAll then false else p.idempotent) }

/-- The rules of an entry: one for each of its patterns. -/
def rules (e : RouteEntry) : List Rule :=
  e.patterns.map fun pattern =>
    { method := e.methodNamed, pattern := PathPattern.ofString pattern,
      policy := e.overwrite RoutePolicy.fresh }

theorem modify_modifiers (e : RouteEntry) (p : RoutePolicy) :
    p.modify e.modifiers = e.overwrite p := by
  obtain ⟨anyRequest, method, patterns, permitAll, breakerName, protectedByBreaker, idempotent⟩ := e
  unfold modifiers overwrite RoutePolicy.modify
  -- the four modifiers that an entry may have change a policy one after the other
  cases permitAll <;> rcases protectedByBreaker with _ | _ | _ <;> rcases idempotent
    with _ | _ | _ <;>
    cases breakerName <;> rfl

/-! ## Entries as declarations -/

/-- The declaration that an entry stands for if it is well-formed. -/
def declaration (e : RouteEntry) : Declaration :=
  { matcher := if e.anyRequest then .anyRequest else .patterns e.methodNamed e.patterns,
    modifiers := e.modifiers }

theorem ofConfigured?_eq_some_iff {text : String} {method : Method} :
    Method.ofConfigured? text = some method
      ↔ method.IsToken ∧ method = ⟨String.ofList (text.toList.map Char.toUpper)⟩ :=
  Method.ofString?_eq_some_iff

theorem rooted_iff {patterns : List String} :
    (∀ pattern ∈ patterns, pattern.toList.head? = some '/')
      ↔ ∀ pattern ∈ patterns, ∃ rest, pattern.toList = '/' :: rest :=
  forall₂_congr fun _ _ => List.head?_eq_some_iff

/-- **An entry stands for a declaration without a fault** exactly if it is well-formed. -/
theorem declares_wellFormed_iff {e : RouteEntry} {d : Declaration} :
    e.Declares d ∧ d.WellFormed ↔ e.WellFormed ∧ d = e.declaration := by
  constructor
  · rintro ⟨hdeclares, hd⟩
    cases hdeclares with
    | anyRequest hany hpatterns =>
      refine ⟨.anyRequest hany hpatterns, ?_⟩
      rw [declaration, if_pos hany]
    | anyMethod hany hpatterns hmethod =>
      have hnone : e.methodNamed = none := by rw [methodNamed, hmethod]; rfl
      refine ⟨.patterns hany hpatterns (rooted_iff.1 (hd _ _ rfl).2) fun method hnamed => ?_, ?_⟩
      · cases hnone.symm.trans hnamed
      · rw [declaration, if_neg (Bool.eq_false_iff.1 hany), hnone]
    | oneMethod hany hpatterns text method hmethod hread =>
      obtain ⟨htoken, hraised⟩ := ofConfigured?_eq_some_iff.1 hread
      have hsome : e.methodNamed = some method := by rw [methodNamed, hmethod, hraised]; rfl
      refine ⟨.patterns hany hpatterns (rooted_iff.1 (hd _ _ rfl).2) fun other hnamed => ?_, ?_⟩
      · rw [← Option.some.inj (hsome.symm.trans hnamed)]
        exact htoken
      · rw [declaration, if_neg (Bool.eq_false_iff.1 hany), hsome]
  · rintro ⟨hwell, rfl⟩
    cases hwell with
    | anyRequest hany hpatterns =>
      rw [declaration, if_pos hany]
      exact ⟨.anyRequest hany hpatterns, nofun⟩
    | patterns hany hpatterns hrooted hmethod =>
      rw [declaration, if_neg (Bool.eq_false_iff.1 hany)]
      refine ⟨?_, fun method patterns hmatcher => ?_⟩
      · cases htext : e.method with
        | none =>
          have hnone : e.methodNamed = none := by rw [methodNamed, htext]; rfl
          rw [hnone]
          exact .anyMethod hany hpatterns htext
        | some text =>
          have hsome : e.methodNamed = some ⟨String.ofList (text.toList.map Char.toUpper)⟩ := by
            rw [methodNamed, htext]
            rfl
          rw [hsome]
          exact .oneMethod hany hpatterns text _ htext
            (ofConfigured?_eq_some_iff.2 ⟨hmethod _ hsome, rfl⟩)
      · obtain ⟨-, rfl⟩ := Matcher.patterns.inj hmatcher
        exact ⟨hpatterns, rooted_iff.2 hrooted⟩

theorem isAnyRequest_declaration (e : RouteEntry) : e.declaration.isAnyRequest = e.anyRequest := by
  rw [declaration]
  cases e.anyRequest <;> rfl

theorem rules_declaration {e : RouteEntry} (h : e.WellFormed) : e.declaration.rules = e.rules := by
  have hpolicy := e.modify_modifiers RoutePolicy.fresh
  cases h with
  | anyRequest hany hpatterns =>
    rw [declaration, if_pos hany, rules, hpatterns]
    rfl
  | patterns hany =>
    rw [declaration, if_neg (Bool.eq_false_iff.1 hany), rules, ← hpolicy]
    rfl

theorem changeDefault_declaration (e : RouteEntry) (p : RoutePolicy) :
    e.declaration.changeDefault p = if e.anyRequest then e.overwrite p else p := by
  rw [declaration, ← e.modify_modifiers]
  cases e.anyRequest <;> rfl

end RouteEntry

/-! ## Lists of entries -/

/-- Well-formed entries stand for one list of declarations, and other entries for none
without a fault. -/
theorem forall₂_declares_iff {entries : List RouteEntry} {ds : List Declaration} :
    List.Forall₂ RouteEntry.Declares entries ds ∧ (∀ d ∈ ds, d.WellFormed)
      ↔ (∀ e ∈ entries, e.WellFormed) ∧ ds = entries.map RouteEntry.declaration := by
  induction entries generalizing ds with
  | nil =>
    rw [List.forall₂_nil_left_iff]
    constructor
    · rintro ⟨rfl, -⟩
      exact ⟨nofun, rfl⟩
    · rintro ⟨-, rfl⟩
      exact ⟨rfl, nofun⟩
  | cons e entries ih =>
    rw [List.forall₂_cons_left_iff, List.forall_mem_cons, List.map_cons]
    constructor
    · rintro ⟨⟨d, rest, hd, hrest, rfl⟩, hwell⟩
      obtain ⟨hfirst, rfl⟩ := RouteEntry.declares_wellFormed_iff.1 ⟨hd, hwell d List.mem_cons_self⟩
      obtain ⟨hothers, rfl⟩ := ih.1 ⟨hrest, fun x hx => hwell x (List.mem_cons_of_mem _ hx)⟩
      exact ⟨⟨hfirst, hothers⟩, rfl⟩
    · rintro ⟨⟨hfirst, hothers⟩, rfl⟩
      obtain ⟨hd, hwell⟩ := RouteEntry.declares_wellFormed_iff.2 ⟨hfirst, rfl⟩
      obtain ⟨hrest, hwellRest⟩ := ih.2 ⟨hothers, rfl⟩
      exact ⟨⟨_, _, hd, hrest, rfl⟩, List.forall_mem_cons.2 ⟨hwell, hwellRest⟩⟩

theorem flatMap_rules_declaration {entries : List RouteEntry} (h : ∀ e ∈ entries, e.WellFormed) :
    (entries.map RouteEntry.declaration).flatMap Declaration.rules
      = entries.flatMap RouteEntry.rules := by
  rw [List.flatMap_map]
  exact List.flatMap_congr fun e he => RouteEntry.rules_declaration (h e he)

theorem countP_declaration (entries : List RouteEntry) :
    (entries.map RouteEntry.declaration).countP (·.isAnyRequest)
      = entries.countP (·.anyRequest) := by
  rw [List.countP_map]
  exact List.countP_congr fun e _ => by rw [Function.comp_apply, e.isAnyRequest_declaration]

/-- The default policy that entries leave: each one for any request overwrites it. -/
def defaultsAfter (defaults : RoutePolicy) (entries : List RouteEntry) : RoutePolicy :=
  entries.foldl (fun p e => if e.anyRequest then e.overwrite p else p) defaults

theorem foldl_changeDefault_declaration (entries : List RouteEntry) (defaults : RoutePolicy) :
    (entries.map RouteEntry.declaration).foldl (fun p d => d.changeDefault p) defaults
      = defaultsAfter defaults entries := by
  rw [List.foldl_map, defaultsAfter]
  simp only [RouteEntry.changeDefault_declaration]

/-- Entries of which none is for any request leave the defaults as they are. -/
theorem defaultsAfter_of_none {entries : List RouteEntry} (h : ∀ e ∈ entries, e.anyRequest = false)
    (defaults : RoutePolicy) : defaultsAfter defaults entries = defaults := by
  induction entries with
  | nil => rfl
  | cons e entries ih =>
    obtain ⟨hfirst, hothers⟩ := List.forall_mem_cons.1 h
    rw [defaultsAfter, List.foldl_cons, hfirst]
    exact ih hothers

/-- If there is no more than one entry for any request, the defaults are overwritten by that one. -/
theorem defaultsAfter_of_mem {entries : List RouteEntry} (hone : entries.countP (·.anyRequest) ≤ 1)
    {e : RouteEntry} (he : e ∈ entries) (hany : e.anyRequest = true) (defaults : RoutePolicy) :
    defaultsAfter defaults entries = e.overwrite defaults := by
  obtain ⟨before, after, rfl⟩ := List.append_of_mem he
  rw [List.countP_append, List.countP_cons, if_pos hany] at hone
  have hothers : before.countP (·.anyRequest) = 0 ∧ after.countP (·.anyRequest) = 0 := by omega
  have hbefore : ∀ x ∈ before, x.anyRequest = false := fun x hx =>
    Bool.eq_false_iff.2 (List.countP_eq_zero.1 hothers.1 x hx)
  have hafter : ∀ x ∈ after, x.anyRequest = false := fun x hx =>
    Bool.eq_false_iff.2 (List.countP_eq_zero.1 hothers.2 x hx)
  have hstart := defaultsAfter_of_none hbefore defaults
  rw [defaultsAfter] at hstart
  rw [defaultsAfter, List.foldl_append, List.foldl_cons, hstart, if_pos hany]
  exact defaultsAfter_of_none hafter _

/-- **The rule set of a list of entries.** There is one exactly if all of them are well-formed and
at most one is for any request. -/
theorem RuleSet.ofEntries_accepts_iff {defaults : RoutePolicy} {entries : List RouteEntry}
    {set : RuleSet} :
    RuleSet.ofEntries defaults entries = .ok set
      ↔ entries.countP (·.anyRequest) ≤ 1 ∧ (∀ e ∈ entries, e.WellFormed)
        ∧ set = { rules := entries.flatMap RouteEntry.rules
                  defaultPolicy := defaultsAfter defaults entries } := by
  rw [RuleSet.ofEntries_eq_ok_iff]
  constructor
  · rintro ⟨ds, hds, hmade⟩
    obtain ⟨hwell, hone, rfl⟩ := RuleSet.ofDeclarations_eq_ok_iff.1 hmade
    obtain ⟨hentries, rfl⟩ := forall₂_declares_iff.1 ⟨hds, hwell⟩
    rw [countP_declaration] at hone
    exact ⟨hone, hentries,
      by rw [flatMap_rules_declaration hentries, foldl_changeDefault_declaration]⟩
  · rintro ⟨hone, hentries, rfl⟩
    obtain ⟨hds, hwell⟩ := forall₂_declares_iff.2 ⟨hentries, rfl⟩
    rw [← countP_declaration] at hone
    refine ⟨_, hds, RuleSet.ofDeclarations_eq_ok_iff.2 ⟨hwell, hone, ?_⟩⟩
    rw [flatMap_rules_declaration hentries, foldl_changeDefault_declaration]

/-- **Entries are accepted exactly if they are well-formed,** and what they make is what they say. A
list of entries makes a rule set exactly if at most one of them is for any request and each of them
is well-formed. The rules are then those of the patterns of the entries, in order, each for the
method of its entry and with a fresh policy that the entry overwrites. The default policy is the
given one, overwritten by the entry for any request if there is one. -/
theorem RuleSet.ofEntries_exact (defaults : RoutePolicy) (entries : List RouteEntry) :
    ((∃ set, RuleSet.ofEntries defaults entries = .ok set)
        ↔ entries.countP (·.anyRequest) ≤ 1 ∧ ∀ e ∈ entries, e.WellFormed)
      ∧ ∀ set, RuleSet.ofEntries defaults entries = .ok set →
        set.rules = entries.flatMap (fun e => e.patterns.map fun pattern =>
            { method := e.methodNamed, pattern := PathPattern.ofString pattern,
              policy := e.overwrite RoutePolicy.fresh })
          ∧ (∀ e ∈ entries, e.anyRequest = true → set.defaultPolicy = e.overwrite defaults)
          ∧ ((∀ e ∈ entries, e.anyRequest = false) → set.defaultPolicy = defaults) := by
  refine ⟨?_, fun set hset => ?_⟩
  · constructor
    · rintro ⟨set, hset⟩
      obtain ⟨hone, hentries, -⟩ := RuleSet.ofEntries_accepts_iff.1 hset
      exact ⟨hone, hentries⟩
    · rintro ⟨hone, hentries⟩
      exact ⟨_, RuleSet.ofEntries_accepts_iff.2 ⟨hone, hentries, rfl⟩⟩
  · obtain ⟨hone, -, rfl⟩ := RuleSet.ofEntries_accepts_iff.1 hset
    exact ⟨rfl, fun e he hany => defaultsAfter_of_mem hone he hany defaults,
      fun hnone => defaultsAfter_of_none hnone defaults⟩

/-- Everything under `/public` is for everybody, but it is guarded all the same, by a
breaker of its own. -/
def publicEntry : RouteEntry :=
  { RouteEntry.blank with
    method := some "get", patterns := ["/public/**", "/favicon.ico"], permitAll := true,
    protectedByBreaker := some true, breakerName := some "static" }

/-- Whatever has no rule is idempotent; the method of this entry is never read. -/
def restEntry : RouteEntry :=
  { RouteEntry.blank with anyRequest := true, method := some "no method", idempotent := some true }

/-- The two patterns have a rule each, with protection given back after `permitAll` has taken it
away, and the defaults keep the name of their breaker. -/
theorem RuleSet.ofEntries_exact_public :
    ∃ set,
      RuleSet.ofEntries { RoutePolicy.fresh with breakerName := "orders" }
        [publicEntry, restEntry] = .ok set
      ∧ set.rules = ["/public/**", "/favicon.ico"].map (fun pattern =>
          { method := some ⟨"GET"⟩, pattern := PathPattern.ofString pattern,
            policy := { breakerName := "static", protectedByBreaker := true,
                        idempotent := false } })
      ∧ set.defaultPolicy
        = { breakerName := "orders", protectedByBreaker := true, idempotent := true } := by
  let defaults : RoutePolicy := { RoutePolicy.fresh with breakerName := "orders" }
  obtain ⟨haccepts, hmade⟩ := RuleSet.ofEntries_exact defaults [publicEntry, restEntry]
  have hpublic : publicEntry.WellFormed := by
    refine .patterns rfl nofun (fun pattern hpattern => ?_) fun method hnamed => ?_
    · have hpatterns : pattern = "/public/**" ∨ pattern = "/favicon.ico" := by
        simpa [publicEntry] using hpattern
      rcases hpatterns with rfl | rfl
      · exact ⟨"public/**".toList, rfl⟩
      · exact ⟨"favicon.ico".toList, rfl⟩
    · have hget : (⟨"GET"⟩ : Method) = method := Option.some.inj hnamed
      have hread : Method.ofString? "GET" = some ⟨"GET"⟩ := by decide
      rw [← hget]
      exact (Method.ofString?_eq_some_iff.1 hread).1
  have hwell : ∀ e ∈ [publicEntry, restEntry], e.WellFormed :=
    List.forall_mem_cons.2 ⟨hpublic, List.forall_mem_singleton.2 (.anyRequest rfl rfl)⟩
  obtain ⟨set, hset⟩ := haccepts.2 ⟨by decide, hwell⟩
  obtain ⟨hrules, hdefault, -⟩ := hmade set hset
  refine ⟨set, hset, hrules.trans ?_, hdefault restEntry (by simp) rfl⟩
  have hget : publicEntry.methodNamed = some ⟨"GET"⟩ := rfl
  have hpolicy : publicEntry.overwrite RoutePolicy.fresh
      = { breakerName := "static", protectedByBreaker := true, idempotent := false } := rfl
  rw [List.flatMap_cons, List.flatMap_singleton, hget, hpolicy]
  exact List.append_nil _

end Routing
end Gatehouse
