/-
Ordered route rules and how they are declared.

A rule set is a list of rules, of which the first that matches decides, and a policy for
requests that no rule matches. It is declared in batches: a batch is either `anyRequest`, whose
modifiers change the default policy, or a list of patterns, each of which becomes a rule. A
declaration hands back a `Batch`, and modifiers are applied to a batch, so they reach the rules
of that batch and no others.

Faults of a declaration are kept, the first one wins, and `build` reports it. A rule set can also be
declared by configuration entries (`RuleSet.ofEntries`); faults that an entry shows by itself are
reported at that entry, before anything that `build` would report.
-/
import Gatehouse.Http.Method
import Gatehouse.Routing.Pattern
import Gatehouse.Routing.Policy

set_option autoImplicit false

namespace Gatehouse.Routing

open Gatehouse.Http

/-! ## Rules -/

/-- **Rule:** requests of one method (or any) whose path matches a pattern get a policy. -/
structure Rule where
  /-- The only method the rule applies to; `none` for every method. -/
  method : Option Method
  pattern : PathPattern
  /-- What matching requests get. -/
  policy : RoutePolicy
  deriving DecidableEq, Repr

def Rule.matches (rule : Rule) (method : Method) (path : String) : Bool :=
  (match rule.method with
    | none => true
    | some m => m == method) && rule.pattern.matches path

structure RuleSet where
  rules : List Rule
  /-- The policy of requests that no rule matches. -/
  defaultPolicy : RoutePolicy
  deriving DecidableEq, Repr

/-- The policy of a request: that of the first rule that matches, else the default. -/
def RuleSet.resolve (set : RuleSet) (method : Method) (path : String) : RoutePolicy :=
  ((set.rules.find? fun rule => rule.matches method path).map (·.policy)).getD set.defaultPolicy

/-! ## Faults of a declaration -/

/-- What can be wrong with a declaration. -/
inductive RuleError where
  /-- `anyRequest` came a second time. -/
  | duplicateAnyRequest
  /-- A configuration entry with modifiers but no patterns. -/
  | modifierWithoutMatcher (index : Nat)
  /-- A configuration entry for any request that lists patterns. -/
  | anyRequestWithPatterns (index : Nat)
  /-- A batch without patterns. -/
  | emptyBatch (index : Nat)
  /-- A configured method that is no method. -/
  | invalidMethod (text : String)
  /-- A pattern that does not begin with a slash. -/
  | invalidPattern (text : String)
  deriving DecidableEq, Repr

def RuleError.message : RuleError → String
  | .duplicateAnyRequest => "any_request() may only be declared once"
  | .modifierWithoutMatcher index =>
    "rule " ++ toString index ++ ": modifiers declared without a matcher"
  | .anyRequestWithPatterns index =>
    "rule " ++ toString index ++ ": any_request cannot be combined with patterns"
  | .emptyBatch index => "rule " ++ toString index ++ ": no patterns declared"
  | .invalidMethod text => "invalid HTTP method '" ++ text ++ "'"
  | .invalidPattern text => "pattern '" ++ text ++ "' must start with '/'"

/-! ## Declaring rules -/

/-- What the modifiers of a declaration reach. -/
inductive Batch where
  | defaultPolicy
  /-- The rules from one position up to, not including, another. -/
  | rules (start stop : Nat)
  deriving DecidableEq, Repr

/-- **Rule set under construction.** -/
structure Builder where
  rules : List Rule
  defaultPolicy : RoutePolicy
  /-- Whether `anyRequest` was declared. -/
  anyRequestDeclared : Bool
  /-- The first fault so far. -/
  fault : Option RuleError
  deriving DecidableEq, Repr

namespace Builder

def start (defaultPolicy : RoutePolicy) : Builder :=
  { rules := [], defaultPolicy, anyRequestDeclared := false, fault := none }

/-- Keeps a fault, unless there is one already. -/
def fail (b : Builder) (error : RuleError) : Builder :=
  { b with fault := some (b.fault.getD error) }

/-- Declares the batch of all requests that no rule matches. -/
def anyRequest (b : Builder) : Builder × Batch :=
  let b := if b.anyRequestDeclared then b.fail .duplicateAnyRequest else b
  ({ b with anyRequestDeclared := true }, .defaultPolicy)

/-- Adds the rule of one pattern, with the policy of a new rule. -/
def addPattern (method : Option Method) (b : Builder) (pattern : String) : Builder :=
  let b := if pattern.toList.head? == some '/' then b else b.fail (.invalidPattern pattern)
  { b with rules := b.rules ++
    [{ method, pattern := PathPattern.ofString pattern, policy := RoutePolicy.fresh }] }

/-- Declares a batch of patterns for one method, or for all. -/
def patterns (b : Builder) (method : Option Method) (patterns : List String) : Builder × Batch :=
  let start := b.rules.length
  let b := patterns.foldl (addPattern method) b
  let b := if b.rules.length = start then b.fail (.emptyBatch start) else b
  (b, .rules start b.rules.length)

/-- Applies a modifier to a batch. -/
def modify (b : Builder) (batch : Batch) (modifier : Modifier) : Builder :=
  match batch with
  | .defaultPolicy => { b with defaultPolicy := modifier.apply b.defaultPolicy }
  | .rules start stop =>
    { b with rules := b.rules.mapIdx fun i rule =>
        if start ≤ i ∧ i < stop then { rule with policy := modifier.apply rule.policy } else rule }

def modifyAll (b : Builder) (batch : Batch) (modifiers : List Modifier) : Builder :=
  modifiers.foldl (fun b m => b.modify batch m) b

/-- The finished rule set, or the first fault. -/
def build (b : Builder) : Except RuleError RuleSet :=
  match b.fault with
  | some error => .error error
  | none => .ok { rules := b.rules, defaultPolicy := b.defaultPolicy }

end Builder

/-- What a declaration is about. -/
inductive Matcher where
  /-- All requests that no rule matches. -/
  | anyRequest
  /-- Requests of a method (or of any) whose path matches one of the patterns. -/
  | patterns (method : Option Method) (patterns : List String)
  deriving DecidableEq, Repr

/-- **Declaration:** a matcher and the modifiers of its batch. -/
structure Declaration where
  matcher : Matcher
  modifiers : List Modifier
  deriving DecidableEq, Repr

/-- The builder after one declaration. -/
def Builder.declare (b : Builder) (d : Declaration) : Builder :=
  let (b, batch) := match d.matcher with
    | .anyRequest => b.anyRequest
    | .patterns method list => b.patterns method list
  b.modifyAll batch d.modifiers

/-- The rule set of a list of declarations. -/
def RuleSet.ofDeclarations (defaultPolicy : RoutePolicy) (ds : List Declaration) :
    Except RuleError RuleSet :=
  (ds.foldl Builder.declare (Builder.start defaultPolicy)).build

/-! ## Configuration entries -/

/-- One configured batch. -/
structure RouteEntry where
  /-- The modifiers are for the default policy. -/
  anyRequest : Bool
  method : Option String
  patterns : List String
  permitAll : Bool
  breakerName : Option String
  protectedByBreaker : Option Bool
  idempotent : Option Bool
  deriving DecidableEq, Repr

namespace RouteEntry

def blank : RouteEntry :=
  { anyRequest := false, method := none, patterns := [], permitAll := false, breakerName := none,
    protectedByBreaker := none, idempotent := none }

def hasModifiers (e : RouteEntry) : Bool :=
  e.permitAll || e.breakerName.isSome || e.protectedByBreaker.isSome || e.idempotent.isSome

/-- The changes an entry makes, in the order in which they are made. -/
def modifiers (e : RouteEntry) : List Modifier :=
  (if e.permitAll then [.permitAll] else [])
  ++ (match e.protectedByBreaker with
      | some true => [.protectedByBreaker]
      | some false => [.unprotected]
      | none => [])
  ++ (match e.idempotent with
      | some true => [.idempotent]
      | some false => [.notIdempotent]
      | none => [])
  ++ (match e.breakerName with
      | some name => [.breakerName name]
      | none => [])

/-- What an entry is about, or the fault it shows by itself. -/
def matcher (e : RouteEntry) (index : Nat) : Except RuleError Matcher :=
  if e.anyRequest then
    if e.patterns.isEmpty then .ok .anyRequest else .error (.anyRequestWithPatterns index)
  else if e.patterns.isEmpty then
    .error (if e.hasModifiers then .modifierWithoutMatcher index else .emptyBatch index)
  else match e.method with
    | none => .ok (.patterns none e.patterns)
    | some text =>
      match Method.ofConfigured? text with
      | none => .error (.invalidMethod text)
      | some method => .ok (.patterns (some method) e.patterns)

end RouteEntry

/-- The builder after a list of entries, the first of which has the given number. -/
def Builder.declareEntries (b : Builder) (index : Nat) : List RouteEntry → Except RuleError Builder
  | [] => .ok b
  | e :: rest =>
    match e.matcher index with
    | .error error => .error error
    | .ok matcher =>
      (b.declare { matcher, modifiers := e.modifiers }).declareEntries (index + 1) rest

/-- **The rule set of a list of configuration entries,** in order. -/
def RuleSet.ofEntries (defaultPolicy : RoutePolicy) (entries : List RouteEntry) :
    Except RuleError RuleSet :=
  match (Builder.start defaultPolicy).declareEntries 0 entries with
  | .error error => .error error
  | .ok b => b.build

end Gatehouse.Routing
