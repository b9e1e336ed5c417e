/-
What a list of declarations builds, fault by fault and rule by rule.

Construction goes on after a fault. The declarations that follow still add their rules, and of all
faults the builder keeps the first. So what is reported is a matter of order, and it is said here in
terms of the order alone: a declaration is judged where it stands, by itself and by the declarations
before it (`FaultyAfter`), and `FirstFault` is the earliest such judgement. Likewise a rule is
judged where it stands when a request is resolved (`Assigns`).

`Builder.declare_eq` has already taken the positions of batches out of the argument. What is left is
to see that the counters of a builder, the number of its rules and whether a declaration for any
request has come, say just what is needed of the declarations before (`fault?_eq_some_iff`); the
rest is induction from the last declaration.
-/
import Gatehouse.Proofs.Places
import Gatehouse.Proofs.Routing.Declarations
import Mathlib.Data.List.Induction

set_option autoImplicit false

namespace Gatehouse.Routing

open Gatehouse.Http

/-! ## Faults where they stand -/

/-- **A declaration is faulty** where it comes after some others: it is for any request and one of
them is too, it lists no patterns, or it lists one that does not begin with a slash. An empty batch
is named by the number of rules before it, and of several bad patterns the first is named. -/
inductive Declaration.FaultyAfter (before : List Declaration) : Declaration → RuleError → Prop where
  | secondAnyRequest (modifiers : List Modifier) (earlier : Declaration)
      (hearlier : earlier ∈ before) (hany : earlier.matcher = .anyRequest) :
      FaultyAfter before { matcher := .anyRequest, modifiers } .duplicateAnyRequest
  | noPatterns (method : Option Method) (modifiers : List Modifier) :
      FaultyAfter before { matcher := .patterns method [], modifiers }
        (.emptyBatch (before.flatMap Declaration.rules).length)
  | badPattern (method : Option Method) (modifiers : List Modifier) (good : List String)
      (bad : String) (more : List String)
      (hgood : ∀ pattern ∈ good, pattern.toList.head? = some '/')
      (hbad : bad.toList.head? ≠ some '/') :
      FaultyAfter before { matcher := .patterns method (good ++ bad :: more), modifiers }
        (.invalidPattern bad)

/-- No declaration of a list is faulty. -/
def Faultless (ds : List Declaration) : Prop :=
  ∀ before d after, ds = before ++ d :: after → ∀ error, ¬d.FaultyAfter before error

/-- **The first fault of a list of declarations:** one of them shows it, and none before
that one is faulty. -/
def FirstFault (ds : List Declaration) (error : RuleError) : Prop :=
  ∃ before d after, ds = before ++ d :: after ∧ d.FaultyAfter before error ∧ Faultless before

theorem faultless_concat_iff {ds : List Declaration} {d : Declaration} :
    Faultless (ds ++ [d]) ↔ Faultless ds ∧ ∀ error, ¬d.FaultyAfter ds error :=
  forall_place_concat_iff

theorem firstFault_concat_iff {ds : List Declaration} {d : Declaration} {error : RuleError} :
    FirstFault (ds ++ [d]) error ↔ FirstFault ds error ∨ d.FaultyAfter ds error ∧ Faultless ds :=
  exists_place_concat_iff

theorem Faultless.not_firstFault {ds : List Declaration} (h : Faultless ds) (error : RuleError) :
    ¬FirstFault ds error := by
  rintro ⟨before, d, after, hplace, hfaulty, -⟩
  exact h before d after hplace error hfaulty

/-- The first pattern of a batch that does not begin with a slash. -/
theorem find?_bad_eq_some_iff {patterns : List String} {bad : String} :
    (patterns.find? fun pattern => pattern.toList.head? ≠ some '/') = some bad
      ↔ bad.toList.head? ≠ some '/' ∧ ∃ good more, patterns = good ++ bad :: more
        ∧ ∀ pattern ∈ good, pattern.toList.head? = some '/' := by
  rw [List.find?_eq_some_iff_append]
  simp

/-- **What the counters of a builder say of the declarations before.** -/
theorem Declaration.fault?_eq_some_iff {before : List Declaration} {d : Declaration}
    {error : RuleError} :
    d.fault? (before.flatMap Declaration.rules).length (before.any (·.isAnyRequest)) = some error
      ↔ d.FaultyAfter before error := by
  obtain ⟨matcher, modifiers⟩ := d
  cases matcher with
  | anyRequest =>
    have hdeclared : before.any (·.isAnyRequest) = true
        ↔ ∃ earlier ∈ before, earlier.matcher = .anyRequest := by
      simp [isAnyRequest]
    constructor
    · intro h
      by_cases hany : before.any (·.isAnyRequest) = true
      · obtain ⟨earlier, hearlier, hmatcher⟩ := hdeclared.1 hany
        rw [fault?, hany] at h
        cases h
        exact .secondAnyRequest modifiers earlier hearlier hmatcher
      · simp [fault?, hany] at h
    · intro h
      cases h with
      | secondAnyRequest _ earlier hearlier hmatcher =>
        rw [fault?, hdeclared.2 ⟨earlier, hearlier, hmatcher⟩]
        rfl
  | patterns method patterns =>
    change batchFault? _ patterns = some error ↔ _
    unfold batchFault?
    constructor
    · intro h
      by_cases hempty : patterns = []
      · subst hempty
        rw [if_pos rfl] at h
        cases h
        exact .noPatterns method modifiers
      · rw [if_neg hempty, Option.map_eq_some_iff] at h
        obtain ⟨bad, hfound, rfl⟩ := h
        obtain ⟨hbad, good, more, rfl, hgood⟩ := find?_bad_eq_some_iff.1 hfound
        exact .badPattern method modifiers good bad more hgood hbad
    · intro h
      cases h with
      | noPatterns => exact if_pos rfl
      | badPattern _ _ good bad more hgood hbad =>
        rw [if_neg (by simp), find?_bad_eq_some_iff.2 ⟨hbad, good, more, rfl, hgood⟩]
        rfl

/-! ## The fault of a builder -/

namespace Builder

theorem anyRequestDeclared_foldl_declare (ds : List Declaration) (b : Builder) :
    (ds.foldl declare b).anyRequestDeclared
      = (b.anyRequestDeclared || ds.any (·.isAnyRequest)) := by
  induction ds generalizing b with
  | nil => simp
  | cons d ds ih => rw [List.foldl_cons, ih, declare_eq, List.any_cons, Bool.or_assoc]

/-- One declaration more adds a fault where there is none yet. -/
theorem fault_foldl_declare_concat (defaultPolicy : RoutePolicy) (ds : List Declaration)
    (d : Declaration) :
    ((ds ++ [d]).foldl declare (start defaultPolicy)).fault
      = (ds.foldl declare (start defaultPolicy)).fault.or
          (d.fault? (ds.flatMap Declaration.rules).length (ds.any (·.isAnyRequest))) := by
  have hrules := rules_foldl_declare ds (start defaultPolicy)
  have hany := anyRequestDeclared_foldl_declare ds (start defaultPolicy)
  rw [List.foldl_append, List.foldl_cons, List.foldl_nil, declare_eq, hrules, hany]
  rfl

/-- **A builder keeps the first fault of what was declared.** -/
theorem fault_foldl_declare_iff (defaultPolicy : RoutePolicy) (ds : List Declaration) :
    ((ds.foldl declare (start defaultPolicy)).fault = none ↔ Faultless ds)
      ∧ ∀ error, (ds.foldl declare (start defaultPolicy)).fault = some error
        ↔ FirstFault ds error := by
  induction ds using List.reverseRecOn with
  | nil =>
    constructor
    · exact iff_of_true rfl fun before d after hplace => absurd hplace (by simp)
    · intro error
      refine iff_of_false nofun ?_
      rintro ⟨before, d, after, hplace, -⟩
      simp at hplace
  | append_singleton ds d ih =>
    obtain ⟨hnone, hsome⟩ := ih
    rw [fault_foldl_declare_concat, faultless_concat_iff]
    simp only [firstFault_concat_iff]
    cases hbefore : (ds.foldl declare (start defaultPolicy)).fault with
    | some first =>
      -- there is a fault already, and it stays
      have hfirst := (hsome first).1 hbefore
      have hfaulty : ¬Faultless ds := fun h => h.not_firstFault first hfirst
      rw [hbefore] at hsome
      rw [Option.some_or]
      refine ⟨iff_of_false nofun fun h => hfaulty h.1, fun error => ?_⟩
      rw [hsome error]
      exact ⟨.inl, fun h => h.resolve_right fun hlast => hfaulty hlast.2⟩
    | none =>
      have hfaultless := hnone.1 hbefore
      rw [Option.none_or]
      constructor
      · rw [Option.eq_none_iff_forall_ne_some, and_iff_right hfaultless]
        exact forall_congr' fun error => not_congr Declaration.fault?_eq_some_iff
      · intro error
        rw [Declaration.fault?_eq_some_iff]
        exact ⟨fun h => .inr ⟨h, hfaultless⟩,
          fun h => (h.resolve_left (hfaultless.not_firstFault error)).1⟩

theorem build_eq_error_iff {b : Builder} {error : RuleError} :
    b.build = .error error ↔ b.fault = some error := by
  unfold build
  cases b.fault <;> simp

theorem build_eq_ok_iff {b : Builder} {set : RuleSet} :
    b.build = .ok set
      ↔ b.fault = none ∧ set.rules = b.rules ∧ set.defaultPolicy = b.defaultPolicy := by
  unfold build
  obtain ⟨rules, defaultPolicy⟩ := set
  cases b.fault <;> simp [eq_comm]

end Builder

/-! ## The default policy -/

/-- The default policy is changed by the modifiers of the declarations for any request, in order,
and by nothing else. -/
theorem foldl_changeDefault (ds : List Declaration) (p : RoutePolicy) :
    ds.foldl (fun p d => d.changeDefault p) p
      = p.modify ((ds.filter (·.isAnyRequest)).flatMap (·.modifiers)) := by
  induction ds generalizing p with
  | nil => rfl
  | cons d ds ih =>
    obtain ⟨matcher, modifiers⟩ := d
    rw [List.foldl_cons, ih]
    cases matcher with
    | anyRequest =>
      have hthis : Declaration.isAnyRequest { matcher := .anyRequest, modifiers } = true := rfl
      rw [List.filter_cons, if_pos hthis, List.flatMap_cons, RoutePolicy.modify, RoutePolicy.modify,
        List.foldl_append]
      rfl
    | patterns method patterns =>
      have hother : ¬Declaration.isAnyRequest { matcher := .patterns method patterns, modifiers }
          = true :=
        Bool.false_ne_true
      rw [List.filter_cons, if_neg hother]
      rfl

/-! ## Resolving in order -/

/-- A rule covers a request: it is for the method, or for all, and its pattern matches the path. -/
def Rule.Covers (rule : Rule) (method : Method) (path : String) : Prop :=
  (rule.method = none ∨ rule.method = some method) ∧ rule.pattern.matches path = true

theorem Rule.matches_eq_true_iff {rule : Rule} {method : Method} {path : String} :
    rule.matches method path = true ↔ rule.Covers method path := by
  unfold Rule.matches Covers
  cases rule.method <;> simp

/-- **The policy that the order of rules assigns to a request:** that of the earliest rule that
covers it, or the default policy if there is none. -/
inductive RuleSet.Assigns (set : RuleSet) (method : Method) (path : String) :
    RoutePolicy → Prop where
  | earliest (before : List Rule) (rule : Rule) (after : List Rule)
      (hrules : set.rules = before ++ rule :: after) (hcovers : rule.Covers method path)
      (hbefore : ∀ other ∈ before, ¬other.Covers method path) :
      Assigns set method path rule.policy
  | fallsThrough (hnone : ∀ rule ∈ set.rules, ¬rule.Covers method path) :
      Assigns set method path set.defaultPolicy

theorem RuleSet.resolve_eq_iff {set : RuleSet} {method : Method} {path : String}
    {policy : RoutePolicy} :
    set.resolve method path = policy ↔ set.Assigns method path policy := by
  have hfirst : ∀ rule, (set.rules.find? fun rule => rule.matches method path) = some rule
      ↔ rule.Covers method path ∧ ∃ before after, set.rules = before ++ rule :: after
        ∧ ∀ other ∈ before, ¬other.Covers method path := by
    intro rule
    rw [List.find?_eq_some_iff_append]
    simp only [Rule.matches_eq_true_iff, ← Bool.not_eq_true, Bool.not_eq_eq_eq_not, Bool.not_true]
  have hnone : (set.rules.find? fun rule => rule.matches method path) = none
      ↔ ∀ rule ∈ set.rules, ¬rule.Covers method path := by
    simp only [List.find?_eq_none, Rule.matches_eq_true_iff]
  unfold resolve
  constructor
  · rintro rfl
    cases hfound : set.rules.find? fun rule => rule.matches method path with
    | some rule =>
      obtain ⟨hcovers, before, after, hrules, hbefore⟩ := (hfirst rule).1 hfound
      exact .earliest before rule after hrules hcovers hbefore
    | none => exact .fallsThrough (hnone.1 hfound)
  · intro h
    cases h with
    | earliest before rule after hrules hcovers hbefore =>
      rw [(hfirst rule).2 ⟨hcovers, before, after, hrules, hbefore⟩]
      rfl
    | fallsThrough hfree =>
      rw [hnone.2 hfree]
      rfl

/-- **Rules follow the order of their declarations.** A list of declarations makes no rule set
exactly if one of them is faulty where it stands, and then the first fault is reported. Otherwise
the rules are those of the declarations, one after the other, each with a new policy as the
modifiers of its own declaration change it, and the default policy is changed by the modifiers of
the declaration for any request only. Whatever rule set it is, a request gets the policy of the
earliest rule that covers it, and the default policy if none does. -/
theorem RuleSet.ofDeclarations_in_order (defaultPolicy : RoutePolicy) (ds : List Declaration) :
    ((∃ error, RuleSet.ofDeclarations defaultPolicy ds = .error error)
        ↔ ∃ before d after, ds = before ++ d :: after ∧ ∃ error, d.FaultyAfter before error)
      ∧ (∀ error, RuleSet.ofDeclarations defaultPolicy ds = .error error ↔ FirstFault ds error)
      ∧ (∀ set : RuleSet, RuleSet.ofDeclarations defaultPolicy ds = .ok set
          ↔ Faultless ds ∧ set.rules = ds.flatMap Declaration.rules
            ∧ set.defaultPolicy
              = defaultPolicy.modify ((ds.filter (·.isAnyRequest)).flatMap (·.modifiers)))
      ∧ ∀ (set : RuleSet) (method : Method) (path : String) (policy : RoutePolicy),
          set.resolve method path = policy ↔ set.Assigns method path policy := by
  obtain ⟨hnone, hsome⟩ := Builder.fault_foldl_declare_iff defaultPolicy ds
  have herror : ∀ error, RuleSet.ofDeclarations defaultPolicy ds = .error error
      ↔ FirstFault ds error := by
    intro error
    rw [← hsome error, RuleSet.ofDeclarations, Builder.build_eq_error_iff]
  have hok : ∀ set : RuleSet, RuleSet.ofDeclarations defaultPolicy ds = .ok set
      ↔ Faultless ds ∧ set.rules = ds.flatMap Declaration.rules
        ∧ set.defaultPolicy
          = defaultPolicy.modify ((ds.filter (·.isAnyRequest)).flatMap (·.modifiers)) := by
    intro set
    rw [← hnone, RuleSet.ofDeclarations, Builder.build_eq_ok_iff, Builder.rules_foldl_declare,
      Builder.defaultPolicy_foldl_declare, foldl_changeDefault]
    rfl
  refine ⟨?_, herror, hok, fun _ _ _ _ => RuleSet.resolve_eq_iff⟩
  constructor
  · rintro ⟨error, hbuilt⟩
    obtain ⟨before, d, after, hplace, hfaulty, -⟩ := (herror error).1 hbuilt
    exact ⟨before, d, after, hplace, error, hfaulty⟩
  · -- a rule set would need declarations without a fault
    rintro ⟨before, d, after, hplace, error, hfaulty⟩
    cases hbuilt : RuleSet.ofDeclarations defaultPolicy ds with
    | error first => exact ⟨first, rfl⟩
    | ok set => exact absurd hfaulty (((hok set).1 hbuilt).1 before d after hplace error)

end Gatehouse.Routing
