/-
The rule set that a list of declarations makes.

A builder collects rules, and the modifiers of a declaration reach them by their positions in the
list that has been collected so far. Here a declaration is taken by itself: the rules that it adds,
each with the policy that its own modifiers make of a new one, what it makes of the default policy,
and the fault that it shows. `Builder.declare_eq` says that a builder does exactly this, and nothing
after it looks at positions again; the work is in `modifyAll_batch`, where the positions of a batch
are seen to be the end of the list.

Configuration entries are declarations in another form (`RouteEntry.Declares`), and a list of
entries makes the rule set of the declarations that they stand for (`RuleSet.ofEntries_eq_ok_iff`).
-/
import Gatehouse.Routing.Rules
import Mathlib.Data.List.Forall2

set_option autoImplicit false

namespace Gatehouse.Routing

open Gatehouse.Http

/-! ## Declarations by themselves -/

/-- The rule of one pattern, as it is before any modifier. -/
def Rule.fresh (method : Option Method) (pattern : String) : Rule :=
  { method, pattern := PathPattern.ofString pattern, policy := RoutePolicy.fresh }

def Rule.modify (rule : Rule) (modifiers : List Modifier) : Rule :=
  { rule with policy := rule.policy.modify modifiers }

/-- The first fault of a batch of patterns that comes after some rules. -/
def batchFault? (start : Nat) (patterns : List String) : Option RuleError :=
  if patterns = [] then some (.emptyBatch start)
  else (patterns.find? fun pattern => pattern.toList.head? ≠ some '/').map .invalidPattern

namespace Declaration

def isAnyRequest (d : Declaration) : Bool := d.matcher == .anyRequest

/-- **The rules of a declaration,** with the policy that its modifiers make of a new one. -/
def rules (d : Declaration) : List Rule :=
  match d.matcher with
  | .anyRequest => []
  | .patterns method patterns =>
    patterns.map fun pattern => (Rule.fresh method pattern).modify d.modifiers

/-- What a declaration makes of the default policy. -/
def changeDefault (d : Declaration) (p : RoutePolicy) : RoutePolicy :=
  match d.matcher with
  | .anyRequest => p.modify d.modifiers
  | .patterns _ _ => p

/-- The first fault of a declaration, after some rules and perhaps after a declaration
for any request. -/
def fault? (d : Declaration) (start : Nat) (anyRequestDeclared : Bool) : Option RuleError :=
  match d.matcher with
  | .anyRequest => if anyRequestDeclared then some .duplicateAnyRequest else none
  | .patterns _ patterns => batchFault? start patterns

/-- A declaration without a fault of its own: if it is for patterns it has some, and they
begin with a slash. -/
def WellFormed (d : Declaration) : Prop :=
  ∀ method patterns, d.matcher = .patterns method patterns →
    patterns ≠ [] ∧ ∀ pattern ∈ patterns, pattern.toList.head? = some '/'

theorem fault?_eq_none_iff {d : Declaration} {start : Nat} {anyRequestDeclared : Bool} :
    d.fault? start anyRequestDeclared = none
      ↔ d.WellFormed ∧ ¬(anyRequestDeclared = true ∧ d.isAnyRequest = true) := by
  obtain ⟨matcher, modifiers⟩ := d
  unfold fault? WellFormed isAnyRequest
  cases matcher with
  | anyRequest => simp
  | patterns method patterns =>
    by_cases hempty : patterns = []
    · simp [batchFault?, hempty]
    · simp [batchFault?, hempty]

end Declaration

/-! ## Builders -/

namespace Builder

theorem fail_eq (b : Builder) (error : RuleError) :
    b.fail error = { b with fault := b.fault.or (some error) } := by
  unfold fail
  cases b.fault <;> rfl

/-- The positions from the end of the old rules on are those of the new ones. -/
theorem mapIdx_batch (old new : List Rule) (f : Rule → Rule) :
    ((old ++ new).mapIdx fun i rule =>
      if old.length ≤ i ∧ i < old.length + new.length then f rule else rule)
      = old ++ new.map f := by
  refine List.ext_getElem (by simp) fun i hi hi' => ?_
  have hlength : i < old.length + new.length := by simpa using hi'
  rw [List.getElem_mapIdx]
  by_cases hold : i < old.length
  · rw [if_neg (by omega), List.getElem_append_left hold, List.getElem_append_left hold]
  · rw [if_pos ⟨by omega, hlength⟩, List.getElem_append_right (by omega),
      List.getElem_append_right (by omega), List.getElem_map]

/-- **Modifiers reach the rules of their batch and no others.** -/
theorem modifyAll_batch {b : Builder} {old new : List Rule} (hrules : b.rules = old ++ new)
    (modifiers : List Modifier) :
    b.modifyAll (.rules old.length (old.length + new.length)) modifiers
      = { b with rules := old ++ new.map fun rule => rule.modify modifiers } := by
  induction modifiers generalizing b new with
  | nil =>
    have hnothing : (new.map fun rule => rule.modify []) = new := List.map_id' new
    rw [hnothing, ← hrules]
    rfl
  | cons modifier modifiers ih =>
    have hfirst : (b.modify (.rules old.length (old.length + new.length)) modifier).rules
        = old ++ new.map fun rule => rule.modify [modifier] := by
      rw [modify, hrules]
      exact mapIdx_batch old new _
    have hrest := ih hfirst
    rw [List.length_map, List.map_map] at hrest
    exact hrest

theorem modifyAll_defaultPolicy (b : Builder) (modifiers : List Modifier) :
    b.modifyAll .defaultPolicy modifiers
      = { b with defaultPolicy := b.defaultPolicy.modify modifiers } := by
  induction modifiers generalizing b with
  | nil => rfl
  | cons modifier modifiers ih => exact ih (b.modify .defaultPolicy modifier)

theorem anyRequest_eq (b : Builder) :
    b.anyRequest
      = ({ b with
            anyRequestDeclared := true
            fault :=
              b.fault.or (if b.anyRequestDeclared then some .duplicateAnyRequest else none) },
          .defaultPolicy) := by
  unfold anyRequest
  cases b.anyRequestDeclared with
  | false => simp
  | true => simp [fail_eq]

theorem foldl_addPattern (method : Option Method) (patterns : List String) (b : Builder) :
    patterns.foldl (addPattern method) b
      = { b with
          rules := b.rules ++ patterns.map (Rule.fresh method)
          fault := b.fault.or
            ((patterns.find? fun pattern => pattern.toList.head? ≠ some '/').map
              .invalidPattern) } := by
  induction patterns generalizing b with
  | nil => simp
  | cons pattern patterns ih =>
    rw [List.foldl_cons, ih, addPattern, List.find?_cons]
    by_cases hslash : pattern.toList.head? = some '/'
    · simp [hslash, Rule.fresh]
    · simp [hslash, Rule.fresh, fail_eq]

theorem patterns_eq (b : Builder) (method : Option Method) (list : List String) :
    b.patterns method list
      = ({ b with
            rules := b.rules ++ list.map (Rule.fresh method)
            fault := b.fault.or (batchFault? b.rules.length list) },
          .rules b.rules.length (b.rules.length + (list.map (Rule.fresh method)).length)) := by
  unfold patterns batchFault?
  rw [foldl_addPattern]
  cases list with
  | nil => simp [fail_eq]
  | cons first rest => simp

/-- **What one declaration does to a builder.** -/
theorem declare_eq (b : Builder) (d : Declaration) :
    b.declare d
      = { rules := b.rules ++ d.rules
          defaultPolicy := d.changeDefault b.defaultPolicy
          anyRequestDeclared := b.anyRequestDeclared || d.isAnyRequest
          fault := b.fault.or (d.fault? b.rules.length b.anyRequestDeclared) } := by
  obtain ⟨matcher, modifiers⟩ := d
  cases matcher with
  | anyRequest =>
    unfold declare
    dsimp only
    rw [anyRequest_eq, modifyAll_defaultPolicy]
    simp [Declaration.rules, Declaration.changeDefault, Declaration.isAnyRequest,
      Declaration.fault?]
  | patterns method list =>
    unfold declare
    dsimp only
    rw [patterns_eq, modifyAll_batch rfl, List.map_map]
    simp [Declaration.rules, Declaration.changeDefault, Declaration.isAnyRequest,
      Declaration.fault?, Function.comp_def]

theorem rules_foldl_declare (ds : List Declaration) (b : Builder) :
    (ds.foldl declare b).rules = b.rules ++ ds.flatMap Declaration.rules := by
  induction ds generalizing b with
  | nil => simp
  | cons d ds ih => rw [List.foldl_cons, ih, declare_eq, List.flatMap_cons, List.append_assoc]

theorem defaultPolicy_foldl_declare (ds : List Declaration) (b : Builder) :
    (ds.foldl declare b).defaultPolicy
      = ds.foldl (fun p d => d.changeDefault p) b.defaultPolicy := by
  induction ds generalizing b with
  | nil => rfl
  | cons d ds ih => rw [List.foldl_cons, ih, declare_eq, List.foldl_cons]

/-- A list of declarations brings no fault if each of them is well-formed and there is no more than
one for any request, the earlier ones included. -/
theorem fault_foldl_declare_eq_none_iff (ds : List Declaration) (b : Builder) :
    (ds.foldl declare b).fault = none
      ↔ b.fault = none ∧ (∀ d ∈ ds, d.WellFormed)
        ∧ b.anyRequestDeclared.toNat + ds.countP (·.isAnyRequest) ≤ 1 := by
  induction ds generalizing b with
  | nil => simp [Bool.toNat_le]
  | cons d ds ih =>
    rw [List.foldl_cons, ih, declare_eq, List.countP_cons, List.forall_mem_cons]
    dsimp only
    rw [Option.or_eq_none_iff, Declaration.fault?_eq_none_iff]
    cases hany : d.isAnyRequest with
    | false => simp [and_assoc]
    | true =>
      cases hdeclared : b.anyRequestDeclared with
      | false => simp [and_assoc, Nat.add_comm]
      | true => simp

end Builder

/-! ## Rule sets -/

/-- **The rule set of a list of declarations.** There is one exactly if all of them are well-formed
and at most one is for any request. -/
theorem RuleSet.ofDeclarations_eq_ok_iff {defaultPolicy : RoutePolicy} {ds : List Declaration}
    {set : RuleSet} :
    RuleSet.ofDeclarations defaultPolicy ds = .ok set
      ↔ (∀ d ∈ ds, d.WellFormed) ∧ ds.countP (·.isAnyRequest) ≤ 1
        ∧ set = { rules := ds.flatMap Declaration.rules
                  defaultPolicy := ds.foldl (fun p d => d.changeDefault p) defaultPolicy } := by
  have hfault := Builder.fault_foldl_declare_eq_none_iff ds (Builder.start defaultPolicy)
  have hrules := Builder.rules_foldl_declare ds (Builder.start defaultPolicy)
  have hdefault := Builder.defaultPolicy_foldl_declare ds (Builder.start defaultPolicy)
  simp only [Builder.start, Bool.toNat_false, Nat.zero_add, true_and, List.nil_append]
    at hfault hrules hdefault
  rw [RuleSet.ofDeclarations, Builder.build, ← and_assoc, ← hfault]
  simp only [Builder.start]
  cases hfound : (ds.foldl Builder.declare
      { rules := [], defaultPolicy, anyRequestDeclared := false, fault := none }).fault with
  | some error => simp
  | none =>
    rw [hrules, hdefault]
    simp [eq_comm]

/-! ## Configuration entries -/

/-- **The declaration that an entry stands for,** if it shows no fault by itself. -/
inductive RouteEntry.Declares (e : RouteEntry) : Declaration → Prop where
  | anyRequest (hany : e.anyRequest = true) (hpatterns : e.patterns = []) :
    Declares e { matcher := .anyRequest, modifiers := e.modifiers }
  | anyMethod (hany : e.anyRequest = false) (hpatterns : e.patterns ≠ [])
      (hmethod : e.method = none) :
    Declares e { matcher := .patterns none e.patterns, modifiers := e.modifiers }
  | oneMethod (hany : e.anyRequest = false) (hpatterns : e.patterns ≠ []) (text : String)
      (method : Method) (hmethod : e.method = some text)
      (hread : Method.ofConfigured? text = some method) :
    Declares e { matcher := .patterns (some method) e.patterns, modifiers := e.modifiers }

theorem RouteEntry.Declares.modifiers_eq {e : RouteEntry} {d : Declaration} (h : e.Declares d) :
    d.modifiers = e.modifiers := by
  cases h with
  | anyRequest => rfl
  | anyMethod => rfl
  | oneMethod => rfl

theorem RouteEntry.Declares.matcher_eq {e : RouteEntry} {d : Declaration} (h : e.Declares d)
    (index : Nat) :
    e.matcher index = .ok d.matcher := by
  unfold matcher
  cases h with
  | anyRequest hany hpatterns => simp [hany, hpatterns]
  | anyMethod hany hpatterns hmethod => simp [hany, hpatterns, hmethod]
  | oneMethod hany hpatterns text method hmethod hread => simp [hany, hpatterns, hmethod, hread]

/-- An entry that shows no fault stands for a declaration. -/
theorem RouteEntry.exists_declares {e : RouteEntry} {index : Nat} {m : Matcher}
    (h : e.matcher index = .ok m) :
    ∃ d, e.Declares d := by
  unfold matcher at h
  cases hany : e.anyRequest with
  | true =>
    by_cases hpatterns : e.patterns = []
    · exact ⟨_, .anyRequest hany hpatterns⟩
    · simp [hany, hpatterns] at h
  | false =>
    by_cases hpatterns : e.patterns = []
    · simp [hany, hpatterns] at h
    · cases hmethod : e.method with
      | none => exact ⟨_, .anyMethod hany hpatterns hmethod⟩
      | some text =>
        cases hread : Method.ofConfigured? text with
        | none => simp [hany, hpatterns, hmethod, hread] at h
        | some method => exact ⟨_, .oneMethod hany hpatterns text method hmethod hread⟩

theorem RouteEntry.matcher_eq_ok_iff {e : RouteEntry} {index : Nat} {m : Matcher} :
    e.matcher index = .ok m ↔ e.Declares { matcher := m, modifiers := e.modifiers } := by
  constructor
  · intro h
    obtain ⟨d, hd⟩ := exists_declares h
    have hmatcher : d.matcher = m := Except.ok.inj ((hd.matcher_eq index).symm.trans h)
    rw [← hmatcher, ← hd.modifiers_eq]
    exact hd
  · exact fun h => h.matcher_eq index

theorem Builder.declareEntries_eq_ok_iff (entries : List RouteEntry) (b after : Builder)
    (index : Nat) :
    b.declareEntries index entries = .ok after
      ↔ ∃ ds, List.Forall₂ RouteEntry.Declares entries ds ∧ after = ds.foldl Builder.declare b := by
  induction entries generalizing b index with
  | nil =>
    rw [declareEntries]
    constructor
    · intro h
      cases h
      exact ⟨[], .nil, rfl⟩
    · rintro ⟨ds, hds, rfl⟩
      cases hds
      rfl
  | cons e entries ih =>
    rw [declareEntries]
    constructor
    · intro h
      cases hmatcher : e.matcher index with
      | error error => simp [hmatcher] at h
      | ok m =>
        simp only [hmatcher] at h
        obtain ⟨ds, hds, rfl⟩ := (ih _ _).1 h
        exact ⟨_ :: ds, .cons (RouteEntry.matcher_eq_ok_iff.1 hmatcher) hds, rfl⟩
    · rintro ⟨ds, hds, rfl⟩
      cases hds with
      | @cons _ d _ ds hd hds =>
        have hmodifiers := hd.modifiers_eq
        obtain ⟨m, modifiers⟩ := d
        obtain rfl : modifiers = e.modifiers := hmodifiers
        rw [RouteEntry.matcher_eq_ok_iff.2 hd]
        exact (ih _ _).2 ⟨ds, hds, rfl⟩

/-- **A list of entries makes the rule set of the declarations that they stand for.** -/
theorem RuleSet.ofEntries_eq_ok_iff {defaultPolicy : RoutePolicy} {entries : List RouteEntry}
    {set : RuleSet} :
    RuleSet.ofEntries defaultPolicy entries = .ok set
      ↔ ∃ ds, List.Forall₂ RouteEntry.Declares entries ds
        ∧ RuleSet.ofDeclarations defaultPolicy ds = .ok set := by
  unfold RuleSet.ofEntries RuleSet.ofDeclarations
  have hdeclared := Builder.declareEntries_eq_ok_iff entries (Builder.start defaultPolicy)
  constructor
  · intro h
    cases hbuilder : (Builder.start defaultPolicy).declareEntries 0 entries with
    | error error => simp [hbuilder] at h
    | ok b =>
      simp only [hbuilder] at h
      obtain ⟨ds, hds, rfl⟩ := (hdeclared b 0).1 hbuilder
      exact ⟨ds, hds, h⟩
  · rintro ⟨ds, hds, h⟩
    rw [(hdeclared _ 0).2 ⟨ds, hds, rfl⟩]
    exact h

end Gatehouse.Routing
