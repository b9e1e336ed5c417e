/-
One registry, and the breakers of its names each by itself.

The uses of a registry are any list of operations on any names, with their times. To each name
belongs the breaker that would be there if there were no other names: a new one with the settings of
the name, on which the operations on that name have been carried out and no others (`alone`). The
invariant is that a registry leads every name to exactly that breaker (`find?_useAll`). An operation
on one name goes to the breaker of that name, and the other names do not notice, not even that a
breaker has been created in between.

That the breaker of a name is always the same one, and no copy, is said through its place: once a
name has been used, its breaker stands at one place for good, and whatever is done to the name is
done at this place and at no other (`Stands`).
-/
import Gatehouse.Proofs.Breaker.Registry
import Gatehouse.Proofs.Tables

set_option autoImplicit false

namespace Gatehouse.Breaker

/-! ## What is done and what is seen -/

/-- An operation on the breaker of a name. -/
structure Use extends TimedOperation where
  name : String
  deriving DecidableEq, Repr

/-- The operations on one name, in their order. -/
def operationsOn (name : String) (uses : List Use) : List TimedOperation :=
  (uses.filter (·.name = name)).map (·.toTimedOperation)

/-- **What is seen of a breaker** in the course of a history: for every operation its answer, and
the state of the breaker after it. -/
def CircuitBreaker.transcript (b : CircuitBreaker) : List TimedOperation → List (Bool × State)
  | [] => []
  | x :: rest =>
    let (answer, after) := b.perform x.time x.operation
    (answer, after.state) :: after.transcript rest

namespace Registry

def use (r : Registry) (u : Use) : Registry := (r.perform u.name u.time u.operation).2.1

/-- The registry after a list of uses. -/
def useAll (r : Registry) (uses : List Use) : Registry := uses.foldl use r

/-- **What is seen of a registry:** for every use the name, the answer, and the state that the
registry has for the name after it. -/
def transcript (r : Registry) : List Use → List (String × Bool × Option State)
  | [] => []
  | u :: rest =>
    let (answer, after, _) := r.perform u.name u.time u.operation
    (u.name, answer, (after.find? u.name).map (·.state)) :: after.transcript rest

/-- **The breaker of a name by itself:** a new one, after the operations on that name and no
others. -/
def alone (config : BreakerConfig) (name : String) (uses : List Use) : CircuitBreaker :=
  (CircuitBreaker.ofSettings (config.settingsFor name)).performAll (operationsOn name uses)

/-- **The breaker of a name stands at a place:** whatever is done to the name gets its answer from
the breaker at this place, and changes what is at this place and nothing else. -/
structure Stands (r : Registry) (name : String) (place : Nat) (b : CircuitBreaker) : Prop where
  there : r.breakers[place]? = some (name, b)
  acted : ∀ now op, r.perform name now op
    = ((b.perform now op).1,
        { r with breakers := r.breakers.set place (name, (b.perform now op).2) },
      announce name b.state (b.perform now op).2.state)

/-! ## One name at a time -/

theorem operationsOn_concat_self {name : String} {u : Use} (h : u.name = name) (uses : List Use) :
    operationsOn name (uses ++ [u]) = operationsOn name uses ++ [u.toTimedOperation] := by
  simp [operationsOn, h]

theorem operationsOn_concat_of_ne {name : String} {u : Use} (h : u.name ≠ name) (uses : List Use) :
    operationsOn name (uses ++ [u]) = operationsOn name uses := by
  simp [operationsOn, h]

theorem operationsOn_of_not_mem {name : String} {uses : List Use} (h : name ∉ uses.map (·.name)) :
    operationsOn name uses = [] := by
  rw [operationsOn, List.filter_eq_nil_iff.2, List.map_nil]
  exact fun u hu heq => h (List.mem_map.2 ⟨u, hu, of_decide_eq_true heq⟩)

theorem alone_concat_self (config : BreakerConfig) (u : Use) (uses : List Use) :
    alone config u.name (uses ++ [u])
      = ((alone config u.name uses).perform u.time u.operation).2 := by
  rw [alone, operationsOn_concat_self rfl, CircuitBreaker.performAll_concat]
  rfl

theorem alone_concat_of_ne (config : BreakerConfig) {name : String} {u : Use} (h : u.name ≠ name)
    (uses : List Use) : alone config name (uses ++ [u]) = alone config name uses := by
  rw [alone, operationsOn_concat_of_ne h, alone]

theorem useAll_concat (r : Registry) (uses : List Use) (u : Use) :
    r.useAll (uses ++ [u]) = (r.useAll uses).use u :=
  List.foldl_append

theorem config_useAll (r : Registry) (uses : List Use) : (r.useAll uses).config = r.config := by
  induction uses using List.reverseRecOn with
  | nil => rfl
  | append_singleton uses u ih => rw [useAll_concat, use, perform_eq, ← ih]

theorem mem_names_concat {name : String} {u : Use} {uses : List Use} :
    name ∈ (uses ++ [u]).map (·.name) ↔ name ∈ uses.map (·.name) ∨ u.name = name := by
  rw [List.map_append, List.mem_append, List.map_singleton, List.mem_singleton, eq_comm (a := name)]

/-- **Invariant:** the breaker that a name leads to is the one that it has by itself, and there is
one in the registry once the name has been used. -/
theorem find?_useAll (config : BreakerConfig) (uses : List Use) (name : String) :
    ((ofConfig config).useAll uses).find? name
      = if name ∈ uses.map (·.name) then some (alone config name uses) else none := by
  induction uses using List.reverseRecOn generalizing name with
  | nil => rfl
  | append_singleton uses u ih =>
    -- before the use its name leads to the breaker that it has by itself, created or not
    have hbefore : ((ofConfig config).useAll uses).breakerOf u.name = alone config u.name uses := by
      rw [breakerOf, ih, config_useAll]
      by_cases hused : u.name ∈ uses.map (·.name)
      · rw [if_pos hused]
        rfl
      · rw [if_neg hused, alone, operationsOn_of_not_mem hused]
        rfl
    rw [useAll_concat, use, perform_eq, hbefore, find?]
    by_cases hname : u.name = name
    · subst hname
      rw [Table.lookup_put_self, if_pos (mem_names_concat.2 (.inr rfl)), alone_concat_self]
    · have hsame : name ∈ (uses ++ [u]).map (·.name) ↔ name ∈ uses.map (·.name) := by
        rw [mem_names_concat, or_iff_left hname]
      rw [Table.lookup_put_of_ne hname, ← find?, ih, alone_concat_of_ne config hname]
      exact if_congr hsame.symm rfl rfl

/-- **What is seen of one name** is what is seen of its breaker alone. -/
theorem transcript_on (r : Registry) (uses : List Use) (name : String) :
    ((r.transcript uses).filter (·.1 = name)).map (·.2)
      = ((r.breakerOf name).transcript (operationsOn name uses)).map fun seen =>
        (seen.1, some seen.2) := by
  induction uses generalizing r with
  | nil => rfl
  | cons u uses ih =>
    have hfind : (r.perform u.name u.time u.operation).2.1.find? u.name
        = some ((r.breakerOf u.name).perform u.time u.operation).2 := by
      rw [perform_eq, find?, Table.lookup_put_self]
    have hanswer : (r.perform u.name u.time u.operation).1
        = ((r.breakerOf u.name).perform u.time u.operation).1 := by
      unfold perform breakerOf
      cases r.find? u.name with
      | none => rfl
      | some b => rfl
    by_cases hname : u.name = name
    · subst hname
      simp only [transcript, operationsOn, CircuitBreaker.transcript, List.filter_cons,
        decide_true, if_true, List.map_cons, hfind, hanswer, Option.map_some]
      exact congrArg _ ((ih _).trans (by rw [breakerOf_perform_self]; rfl))
    · simp only [transcript, operationsOn, List.filter_cons, hname, decide_false,
        Bool.false_eq_true, if_false]
      exact (ih _).trans (by rw [breakerOf_perform_of_ne r u.name u.time u.operation hname]; rfl)

/-! ## One place for each name -/

theorem keys_useAll_nodup (config : BreakerConfig) (uses : List Use) :
    ((ofConfig config).useAll uses).breakers.keys.Nodup := by
  induction uses using List.reverseRecOn with
  | nil => exact List.nodup_nil
  | append_singleton uses u ih =>
    rw [useAll_concat, use, perform_eq]
    exact Table.keys_put_nodup ih

/-- A breaker stays at its place, whichever name is used next. -/
theorem getElem?_use {r : Registry} (hdistinct : r.breakers.keys.Nodup) {name : String}
    {place : Nat} (h : ∃ b, r.breakers[place]? = some (name, b)) (u : Use) :
    ∃ b, (r.use u).breakers[place]? = some (name, b) := by
  obtain ⟨b, hb⟩ := h
  rw [use, perform_eq]
  by_cases hname : u.name = name
  · subst hname
    rw [Table.put_of_getElem? hdistinct hb]
    exact ⟨_, List.getElem?_set_self (List.getElem?_eq_some_iff.1 hb).1⟩
  · exact ⟨b, Table.getElem?_put_of_ne hname hb _⟩

/-- What is at the place of a name is what the name leads to, so there is nothing else
that it acts on. -/
theorem Stands.of_getElem? {r : Registry} (hdistinct : r.breakers.keys.Nodup) {name : String}
    {place : Nat} {b : CircuitBreaker} (h : r.breakers[place]? = some (name, b)) :
    r.Stands name place b := by
  have hfind : r.find? name = some b := Table.lookup_of_getElem? hdistinct h
  refine ⟨h, fun now op => ?_⟩
  unfold perform
  rw [hfind, ← Table.put_of_getElem? hdistinct h]
  rfl

/-- **The place of a name** is found at its first use and is kept through all that follow. -/
theorem exists_stands (config : BreakerConfig) {uses : List Use} {name : String}
    (hused : name ∈ uses.map (·.name)) :
    ∃ place, ∀ more, ((ofConfig config).useAll (uses ++ more)).Stands name place
      (alone config name (uses ++ more)) := by
  have hthere : ((ofConfig config).useAll uses).find? name = some (alone config name uses) := by
    rw [find?_useAll, if_pos hused]
  obtain ⟨place, hplace⟩ := List.mem_iff_getElem?.1 (Table.mem_of_lookup hthere)
  refine ⟨place, fun more => ?_⟩
  have hkept : ∃ b,
      ((ofConfig config).useAll (uses ++ more)).breakers[place]? = some (name, b) := by
    induction more using List.reverseRecOn with
    | nil =>
      rw [List.append_nil]
      exact ⟨_, hplace⟩
    | append_singleton more u ih =>
      rw [← List.append_assoc, useAll_concat]
      exact getElem?_use (keys_useAll_nodup config _) ih u
  obtain ⟨b, hb⟩ := hkept
  have hdistinct := keys_useAll_nodup config (uses ++ more)
  have hmore : name ∈ (uses ++ more).map (·.name) := by
    rw [List.map_append]
    exact List.mem_append_left _ hused
  have hfound : ((ofConfig config).useAll (uses ++ more)).find? name = some b :=
    Table.lookup_of_getElem? hdistinct hb
  rw [find?_useAll, if_pos hmore] at hfound
  rw [Option.some.inj hfound]
  exact .of_getElem? hdistinct hb

/-! ## The list of states -/

theorem mem_states_iff {r : Registry} (hdistinct : r.breakers.keys.Nodup) {name : String}
    {state : State} :
    (name, state) ∈ r.states ↔ ∃ b, r.find? name = some b ∧ b.state = state := by
  rw [states, List.mem_mergeSort, List.mem_map]
  constructor
  · rintro ⟨⟨k, b⟩, hmem, heq⟩
    obtain ⟨rfl, rfl⟩ := Prod.mk.inj heq
    exact ⟨b, (Table.lookup_eq_some_iff_mem hdistinct).2 hmem, rfl⟩
  · rintro ⟨b, hfind, rfl⟩
    exact ⟨(name, b), Table.mem_of_lookup hfind, rfl⟩

/-- The list is in the order of the names, and no name is in it twice. -/
theorem pairwise_states {r : Registry} (hdistinct : r.breakers.keys.Nodup) :
    r.states.Pairwise fun a b => a.1 < b.1 := by
  have hsorted : r.states.Pairwise fun a b => a.1 ≤ b.1 := Table.pairwise_sort _
  have hnames : (r.states.map (·.1)).Nodup := by
    refine ((List.mergeSort_perm _ _).map _).nodup_iff.2 ?_
    rw [List.map_map]
    exact hdistinct
  refine (hsorted.and (List.pairwise_map.1 hnames)).imp fun h => ?_
  exact Std.lt_of_le_of_ne h.1 h.2

/-! ## Isolation -/

/-- **The breakers of a registry are isolated from each other.** Whatever has been done to whichever
names, in whatever order and at whatever times:
- the answers and the states that were seen for a name are those of a single breaker with
  the settings of the name, on which only the operations on that name have been carried out,
  at the same times;
- a name that has been used has one place, at which this single breaker stands from then on, and
  what is done to the name at any later time is done there and nowhere else;
- the list of states is in the order of the names, with each name at most once, and it has those
  names that have been used, each with the state of its single breaker. -/
theorem isolated (config : BreakerConfig) (uses : List Use) :
    let r := (ofConfig config).useAll uses
    (∀ name, (((ofConfig config).transcript uses).filter (·.1 = name)).map (·.2)
      = ((CircuitBreaker.ofSettings (config.settingsFor name)).transcript
          (operationsOn name uses)).map
          fun seen => (seen.1, some seen.2))
      ∧ (∀ name ∈ uses.map (·.name), ∃ place, ∀ more,
          ((ofConfig config).useAll (uses ++ more)).Stands name place
          (alone config name (uses ++ more)))
      ∧ r.states.Pairwise (fun a b => a.1 < b.1)
      ∧ ∀ name state, (name, state) ∈ r.states
          ↔ name ∈ uses.map (·.name) ∧ (alone config name uses).state = state := by
  intro r
  have hdistinct : r.breakers.keys.Nodup := keys_useAll_nodup config uses
  refine ⟨transcript_on (ofConfig config) uses, fun name hused => exists_stands config hused,
    pairwise_states hdistinct, fun name state => ?_⟩
  rw [mem_states_iff hdistinct, find?_useAll]
  by_cases hused : name ∈ uses.map (·.name)
  · simp [hused]
  · simp [hused]

/-- One failure opens the breaker of `jwks`; the other names have standard settings. -/
def jwksTrips : BreakerConfig :=
  { BreakerConfig.standard with instances := [("jwks", CircuitBreaker.briefWait)] }

/-- The failure of one name is in the middle of another's call, which goes on as if
nothing had happened. -/
example : (ofConfig jwksTrips).transcript
    [⟨⟨0, .acquire⟩, "jwks"⟩, ⟨⟨1, .acquire⟩, "orders"⟩, ⟨⟨2, .fail⟩, "jwks"⟩,
      ⟨⟨3, .succeed⟩, "orders"⟩, ⟨⟨4, .acquire⟩, "jwks"⟩, ⟨⟨4, .acquire⟩, "orders"⟩]
    = [("jwks", true, some .closed), ("orders", true, some .closed), ("jwks", false, some .opened),
        ("orders", false, some .closed), ("jwks", false, some .opened),
          ("orders", true, some .closed)] := by
  decide

end Registry
end Gatehouse.Breaker
