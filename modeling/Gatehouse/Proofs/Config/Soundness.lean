/-
What validation finds.

A configuration is sound if it meets its constraints, each of which is stated here for itself
(`Sound`). Validation finds that out: it accepts exactly the sound configurations, and of any other
it lists the constraints that are violated (`Violated`), each once, and nothing else. Nothing that
is put together from the configuration afterwards finds a fault of its own: the gates can be
assembled, and every breaker has sound settings.
-/
import Gatehouse.Config.Loading
import Gatehouse.Pipeline.Guard
import Gatehouse.Proofs.Number.Order
import Gatehouse.Proofs.Tables

set_option autoImplicit false

namespace Gatehouse

open Gatehouse.Config.SocketAddress Gatehouse.Http Gatehouse.Routing

/-! ## Constraints -/

/-- **Settings of a breaker** that it can work with. The threshold is a percentage, and not zero. -/
structure Breaker.Settings.Sound (s : Breaker.Settings) : Prop where
  threshold : ∃ rate, s.failureRateThreshold.toRat? = some rate ∧ 0 < rate ∧ rate ≤ 100
  window : 0 < s.slidingWindowSize
  calls : 0 < s.minimumNumberOfCalls
  trials : 0 < s.permittedCallsInHalfOpenState

/-- A text that names a header: a token that is not too long. -/
structure Http.NamesHeader (text : String) : Prop where
  nonempty : text ≠ ""
  token : ∀ c ∈ text.toList, isTokenChar c = true
  length : text.utf8ByteSize ≤ maxHeaderNameLength

/-- A filter whose pattern begins with a slash. -/
def Traffic.PathFilter.Rooted (filter : Traffic.PathFilter) : Prop :=
  ∃ rest, filter.pathPattern.toList = '/' :: rest

namespace Config

/-- **Sound configuration:** it meets all constraints. -/
structure Sound (c : Config) : Prop where
  bindAddress : isSocketAddress c.bindAddress = true
  requestTimeout : 0 < c.requestTimeoutSecs
  routes : ∃ rules, RuleSet.ofEntries c.defaults c.routes = .ok rules
  breakerDefaults : c.breaker.defaults.Sound
  breakers : ∀ entry ∈ c.breaker.instances, entry.2.Sound
  headerName : NamesHeader c.idempotency.headerName
  maskValue : c.traffic.masking.maskValue ≠ ""
  included : ∀ filter ∈ c.traffic.recording.included, filter.Rooted
  excluded : ∀ filter ∈ c.traffic.recording.excluded, filter.Rooted
  /-- Without metrics their address does not matter. -/
  metricsAddress : c.observability.metricsEnabled = true →
    isSocketAddress c.observability.metricsAddress = true

/-- **A fault that settings of a breaker have.** -/
def BreakerFault.Of (s : Breaker.Settings) : BreakerFault → Prop
  | .failureRateThreshold =>
    ¬∃ rate, s.failureRateThreshold.toRat? = some rate ∧ 0 < rate ∧ rate ≤ 100
  | .slidingWindowSize => s.slidingWindowSize = 0
  | .minimumNumberOfCalls => s.minimumNumberOfCalls = 0
  | .permittedCallsInHalfOpenState => s.permittedCallsInHalfOpenState = 0

/-- **A constraint is violated,** the one that a fault tells of. -/
inductive Violated (c : Config) : Fault → Prop where
  | bindAddress (h : ¬isSocketAddress c.bindAddress = true) :
      Violated c (.bindAddress c.bindAddress)
  | requestTimeout (h : c.requestTimeoutSecs = 0) : Violated c .requestTimeout
  | routes (error : RuleError) (h : RuleSet.ofEntries c.defaults c.routes = .error error) :
    Violated c (.routes error)
  | breakerDefaults (fault : BreakerFault) (h : fault.Of c.breaker.defaults) :
      Violated c (.breaker none fault)
  | breaker (name : String) (s : Breaker.Settings) (fault : BreakerFault)
      (hs : (name, s) ∈ c.breaker.instances) (h : fault.Of s) :
      Violated c (.breaker (some name) fault)
  | headerName (h : ¬NamesHeader c.idempotency.headerName) :
      Violated c (.headerName c.idempotency.headerName)
  | maskValue (h : c.traffic.masking.maskValue = "") : Violated c .maskValue
  | included (index : Nat) (filter : Traffic.PathFilter)
      (hfilter : c.traffic.recording.included[index]? = some filter) (h : ¬filter.Rooted) :
      Violated c (.filterPattern false index)
  | excluded (index : Nat) (filter : Traffic.PathFilter)
      (hfilter : c.traffic.recording.excluded[index]? = some filter) (h : ¬filter.Rooted) :
      Violated c (.filterPattern true index)
  | metricsAddress (henabled : c.observability.metricsEnabled = true)
      (h : ¬isSocketAddress c.observability.metricsAddress = true) :
    Violated c (.metricsAddress c.observability.metricsAddress)

/-! ## What the checks find -/

section

variable {α : Type} {condition : Bool} {fault x : α}

theorem mem_faultUnless_iff : x ∈ faultUnless condition fault ↔ ¬condition = true ∧ x = fault := by
  cases condition <;> simp [faultUnless]

theorem nodup_faultUnless : (faultUnless condition fault).Nodup := by
  cases condition <;> simp [faultUnless]

end

theorem mem_breakerFaults_iff {s : Breaker.Settings} {fault : BreakerFault} :
    fault ∈ breakerFaults s ↔ fault.Of s := by
  simp only [breakerFaults, List.mem_append, mem_faultUnless_iff,
    Number.Binary.between_iff Number.toRat?_ofNat_zero Number.toRat?_ofNat_hundred]
  cases fault <;> simp [BreakerFault.Of]

theorem nodup_breakerFaults (s : Breaker.Settings) : (breakerFaults s).Nodup := by
  unfold breakerFaults faultUnless
  split <;> split <;> split <;> split <;> decide

theorem mem_routeFaults_iff {defaults : RoutePolicy} {routes : List RouteEntry} {fault : Fault} :
    fault ∈ routeFaults defaults routes
      ↔ ∃ error, RuleSet.ofEntries defaults routes = .error error ∧ fault = .routes error := by
  unfold routeFaults
  cases RuleSet.ofEntries defaults routes <;> simp

theorem nodup_routeFaults (defaults : RoutePolicy) (routes : List RouteEntry) :
    (routeFaults defaults routes).Nodup := by
  unfold routeFaults
  split <;> simp

theorem namesHeader_iff {text : String} :
    (HeaderName.ofString? text).isSome = true ↔ NamesHeader text := by
  have hempty : text.toList.isEmpty = true ↔ text = "" := by
    rw [List.isEmpty_iff, String.toList_eq_nil_iff]
  unfold HeaderName.ofString?
  split
  · next h =>
    simp only [Bool.or_eq_true, Bool.not_eq_true', decide_eq_true_eq, hempty,
      List.all_eq_false] at h
    refine iff_of_false nofun fun hnames => ?_
    rcases h with (rfl | ⟨c, hc, hnot⟩) | hlong
    · exact hnames.nonempty rfl
    · exact hnot (hnames.token c hc)
    · exact absurd hnames.length (Nat.not_le_of_lt hlong)
  · next h =>
    simp only [Bool.or_eq_true, Bool.not_eq_true', decide_eq_true_eq, hempty, not_or,
      Bool.not_eq_false, List.all_eq_true, Nat.not_lt] at h
    exact iff_of_true rfl ⟨h.1.1, h.1.2, h.2⟩

theorem rooted_iff {filter : Traffic.PathFilter} :
    (filter.pathPattern.toList.head? == some '/') = true ↔ filter.Rooted := by
  rw [beq_iff_eq]
  exact List.head?_eq_some_iff

theorem mem_filterFaults_iff {excluded : Bool} {filters : List Traffic.PathFilter} {start : Nat}
    {fault : Fault} :
    fault ∈ filterFaults excluded start filters
      ↔ ∃ index filter, filters[index]? = some filter ∧ ¬filter.Rooted
        ∧ fault = .filterPattern excluded (start + index) := by
  induction filters generalizing start with
  | nil => simp [filterFaults]
  | cons first rest ih =>
    rw [filterFaults, List.mem_append, mem_faultUnless_iff, ih, rooted_iff]
    constructor
    · rintro (⟨h, rfl⟩ | ⟨index, filter, hfilter, h, rfl⟩)
      · exact ⟨0, first, rfl, h, rfl⟩
      · exact ⟨index + 1, filter, hfilter, h, by rw [Nat.add_assoc, Nat.add_comm 1]⟩
    · rintro ⟨index, filter, hfilter, h, rfl⟩
      cases index with
      | zero =>
        cases hfilter
        exact .inl ⟨h, rfl⟩
      | succ index => exact .inr ⟨index, filter, hfilter, h, by rw [Nat.add_assoc, Nat.add_comm 1]⟩

theorem nodup_filterFaults (excluded : Bool) (start : Nat) (filters : List Traffic.PathFilter) :
    (filterFaults excluded start filters).Nodup := by
  induction filters generalizing start with
  | nil => exact List.nodup_nil
  | cons first rest ih =>
    refine List.nodup_append.2 ⟨nodup_faultUnless, ih (start + 1), ?_⟩
    rintro fault hfirst other hlater rfl
    obtain ⟨-, rfl⟩ := mem_faultUnless_iff.1 hfirst
    obtain ⟨index, filter, -, -, heq⟩ := mem_filterFaults_iff.1 hlater
    have hnumber := (Fault.filterPattern.inj heq).2
    omega

/-! ## Validation -/

/-- **Validation finds the violated constraints,** and nothing else. -/
theorem mem_faults_iff {c : Config} {fault : Fault} : fault ∈ faults c ↔ Violated c fault := by
  simp only [faults, List.mem_append, mem_faultUnless_iff, mem_routeFaults_iff, List.mem_map,
    List.mem_flatMap, List.mem_mergeSort, mem_breakerFaults_iff, mem_filterFaults_iff,
    namesHeader_iff, Nat.zero_add]
  constructor
  · rintro (((((((((⟨h, rfl⟩ | ⟨h, rfl⟩) | ⟨error, h, rfl⟩) | ⟨own, h, rfl⟩)
        | ⟨entry, hentry, own, h, rfl⟩)
      | ⟨h, rfl⟩) | ⟨h, rfl⟩) | ⟨index, filter, hfilter, h, rfl⟩)
        | ⟨index, filter, hfilter, h, rfl⟩) | ⟨h, rfl⟩)
    · exact .bindAddress h
    · exact .requestTimeout (by simpa using h)
    · exact .routes error h
    · exact .breakerDefaults own h
    · exact .breaker entry.1 entry.2 own hentry h
    · exact .headerName h
    · exact .maskValue (by simpa using h)
    · exact .included index filter hfilter h
    · exact .excluded index filter hfilter h
    · rw [Bool.or_eq_true, not_or] at h
      exact .metricsAddress (by simpa using h.1) h.2
  · intro h
    cases h with
    | bindAddress h => simp [h]
    | requestTimeout h => simp [h]
    | routes error h => simp [h]
    | breakerDefaults own h => simp [h]
    | breaker name s own hs h => simpa using ⟨s, hs, h⟩
    | headerName h => simp [h]
    | maskValue h => simp [h]
    | included index filter hfilter h => simpa using ⟨filter, hfilter, h⟩
    | excluded index filter hfilter h => simpa using ⟨filter, hfilter, h⟩
    | metricsAddress henabled h => simp [henabled, h]

/-- The number of the check that finds a fault. -/
def Fault.check : Fault → Nat
  | .bindAddress _ => 0
  | .requestTimeout => 1
  | .routes _ => 2
  | .breaker none _ => 3
  | .breaker (some _) _ => 4
  | .headerName _ => 5
  | .maskValue => 6
  | .filterPattern excluded _ => if excluded then 8 else 7
  | .metricsAddress _ => 9

/-- Faults that come from the first checks, each once. -/
structure FoundBefore (n : Nat) (found : List Fault) : Prop where
  once : found.Nodup
  before : ∀ fault ∈ found, fault.check < n

theorem FoundBefore.append {n : Nat} {found next : List Fault} (h : FoundBefore n found)
    (honce : next.Nodup) (hnext : ∀ fault ∈ next, fault.check = n) :
    FoundBefore (n + 1) (found ++ next) := by
  refine ⟨List.nodup_append.2 ⟨h.once, honce, ?_⟩, fun fault hfault => ?_⟩
  · rintro fault hfound other hother rfl
    exact absurd (hnext fault hother) (Nat.ne_of_lt (h.before fault hfound))
  · rcases List.mem_append.1 hfault with hfound | hother
    · exact Nat.lt_succ_of_lt (h.before fault hfound)
    · exact hnext fault hother ▸ Nat.lt_succ_self _

/-- A check of one condition finds at most one fault. -/
theorem FoundBefore.faultUnless {n : Nat} {found : List Fault} (h : FoundBefore n found)
    {condition : Bool} {fault : Fault} (hcheck : fault.check = n) :
    FoundBefore (n + 1) (found ++ faultUnless condition fault) :=
  h.append nodup_faultUnless fun _ hfault => (mem_faultUnless_iff.1 hfault).2 ▸ hcheck

/-- No two faults of named breakers are the same, if the names are different. -/
theorem nodup_namedFaults {instances : Table Breaker.Settings} (h : instances.keys.Nodup) :
    ((instances.mergeSort fun a b => decide (a.1 ≤ b.1)).flatMap fun entry =>
      (breakerFaults entry.2).map (Fault.breaker (some entry.1))).Nodup := by
  refine List.nodup_flatMap.2 ⟨fun entry _ => ?_, ?_⟩
  · exact (nodup_breakerFaults entry.2).map fun a b heq => (Fault.breaker.inj heq).2
  · have hsorted : ((instances.mergeSort fun a b => decide (a.1 ≤ b.1)).map (·.1)).Nodup :=
      ((List.mergeSort_perm instances _).map _).nodup_iff.2 h
    have hnames : (instances.mergeSort fun a b => decide (a.1 ≤ b.1)).Pairwise fun a b =>
        a.1 ≠ b.1 :=
      List.pairwise_map.1 hsorted
    refine hnames.imp fun {a b} hne fault hleft hright => ?_
    obtain ⟨own, -, rfl⟩ := List.mem_map.1 hleft
    obtain ⟨other, -, heq⟩ := List.mem_map.1 hright
    exact hne (Option.some.inj (Fault.breaker.inj heq).1).symm

theorem check_of_mem_filterFaults {excluded : Bool} {filters : List Traffic.PathFilter}
    {fault : Fault} (h : fault ∈ filterFaults excluded 0 filters) :
    fault.check = if excluded then 8 else 7 := by
  obtain ⟨index, filter, -, -, rfl⟩ := mem_filterFaults_iff.1 h
  rfl

/-- **Validation finds a violated constraint once,** if the names of the breakers are different. -/
theorem nodup_faults {c : Config} (h : c.breaker.instances.keys.Nodup) : (faults c).Nodup := by
  have hroutes : ∀ fault ∈ routeFaults c.defaults c.routes, fault.check = 2 :=
    fun fault hfault => by
      obtain ⟨error, -, rfl⟩ := mem_routeFaults_iff.1 hfault
      rfl
  have hdefaults : ∀ fault ∈ (breakerFaults c.breaker.defaults).map (Fault.breaker none),
      fault.check = 3 :=
    fun fault hfault => by
      obtain ⟨own, -, rfl⟩ := List.mem_map.1 hfault
      rfl
  have hnamed : ∀ fault ∈ (c.breaker.instances.mergeSort fun a b => decide (a.1 ≤ b.1)).flatMap
      (fun entry => (breakerFaults entry.2).map (Fault.breaker (some entry.1))),
      fault.check = 4 := fun fault hfault => by
    obtain ⟨entry, -, hown⟩ := List.mem_flatMap.1 hfault
    obtain ⟨own, -, rfl⟩ := List.mem_map.1 hown
    rfl
  have hdefault : ((breakerFaults c.breaker.defaults).map (Fault.breaker none)).Nodup :=
    (nodup_breakerFaults _).map fun a b heq => (Fault.breaker.inj heq).2
  have hnone : FoundBefore 0 [] := ⟨List.nodup_nil, nofun⟩
  have hfirst : FoundBefore 2
      ([] ++ faultUnless (isSocketAddress c.bindAddress) (.bindAddress c.bindAddress)
        ++ faultUnless (0 < c.requestTimeoutSecs) .requestTimeout) :=
    .faultUnless (.faultUnless hnone rfl) rfl
  have hdeclared := hfirst.append (nodup_routeFaults c.defaults c.routes) hroutes
  have hbreakers := (hdeclared.append hdefault hdefaults).append (nodup_namedFaults h) hnamed
  have hall : FoundBefore 10 (faults c) := by
    refine FoundBefore.faultUnless
      (.append (.append (.faultUnless (.faultUnless hbreakers ?_) ?_) ?_ ?_) ?_ ?_) ?_
    · rfl
    · rfl
    · exact nodup_filterFaults false 0 c.traffic.recording.included
    · exact fun fault hfault => check_of_mem_filterFaults hfault
    · exact nodup_filterFaults true 0 c.traffic.recording.excluded
    · exact fun fault hfault => check_of_mem_filterFaults hfault
    · rfl
  exact hall.once

/-! ## Soundness -/

theorem breakerSettings_sound_iff {s : Breaker.Settings} :
    s.Sound ↔ ∀ fault, ¬BreakerFault.Of s fault := by
  constructor
  · intro h fault hfault
    cases fault with
    | failureRateThreshold => exact hfault h.threshold
    | slidingWindowSize => exact absurd hfault (Nat.pos_iff_ne_zero.1 h.window)
    | minimumNumberOfCalls => exact absurd hfault (Nat.pos_iff_ne_zero.1 h.calls)
    | permittedCallsInHalfOpenState => exact absurd hfault (Nat.pos_iff_ne_zero.1 h.trials)
  · intro h
    exact ⟨not_not.1 (h .failureRateThreshold), Nat.pos_iff_ne_zero.2 (h .slidingWindowSize),
      Nat.pos_iff_ne_zero.2 (h .minimumNumberOfCalls),
      Nat.pos_iff_ne_zero.2 (h .permittedCallsInHalfOpenState)⟩

theorem breakerFaults_eq_nil_iff {s : Breaker.Settings} : breakerFaults s = [] ↔ s.Sound := by
  rw [breakerSettings_sound_iff, List.eq_nil_iff_forall_not_mem]
  exact forall_congr' fun fault => not_congr mem_breakerFaults_iff

/-- **A configuration is sound** if no constraint is violated. -/
theorem sound_iff {c : Config} : Sound c ↔ ∀ fault, ¬Violated c fault := by
  constructor
  · intro h fault hviolated
    cases hviolated with
    | bindAddress hfault => exact hfault h.bindAddress
    | requestTimeout hfault => exact absurd hfault (Nat.pos_iff_ne_zero.1 h.requestTimeout)
    | routes error hfault =>
      obtain ⟨rules, hrules⟩ := h.routes
      exact nomatch hrules.symm.trans hfault
    | breakerDefaults own hfault => exact breakerSettings_sound_iff.1 h.breakerDefaults own hfault
    | breaker name s own hs hfault =>
      exact breakerSettings_sound_iff.1 (h.breakers (name, s) hs) own hfault
    | headerName hfault => exact hfault h.headerName
    | maskValue hfault => exact h.maskValue hfault
    | included index filter hfilter hfault =>
      exact hfault (h.included filter (List.mem_of_getElem? hfilter))
    | excluded index filter hfilter hfault =>
      exact hfault (h.excluded filter (List.mem_of_getElem? hfilter))
    | metricsAddress henabled hfault => exact hfault (h.metricsAddress henabled)
  · intro h
    refine ⟨?_, ?_, ?_, ?_, ?_, ?_, ?_, ?_, ?_, ?_⟩
    · exact not_not.1 fun hfault => h _ (.bindAddress hfault)
    · exact Nat.pos_iff_ne_zero.2 fun hfault => h _ (.requestTimeout hfault)
    · cases hrules : RuleSet.ofEntries c.defaults c.routes with
      | ok rules => exact ⟨rules, rfl⟩
      | error error => exact absurd (.routes error hrules) (h _)
    · exact breakerSettings_sound_iff.2 fun own hfault => h _ (.breakerDefaults own hfault)
    · exact fun entry hentry => breakerSettings_sound_iff.2 fun own hfault =>
        h _ (.breaker entry.1 entry.2 own hentry hfault)
    · exact not_not.1 fun hfault => h _ (.headerName hfault)
    · exact fun hfault => h _ (.maskValue hfault)
    · intro filter hfilter
      obtain ⟨index, hindex⟩ := List.mem_iff_getElem?.1 hfilter
      exact not_not.1 fun hfault => h _ (.included index filter hindex hfault)
    · intro filter hfilter
      obtain ⟨index, hindex⟩ := List.mem_iff_getElem?.1 hfilter
      exact not_not.1 fun hfault => h _ (.excluded index filter hindex hfault)
    · exact fun henabled => not_not.1 fun hfault => h _ (.metricsAddress henabled hfault)

theorem faults_eq_nil_iff {c : Config} : faults c = [] ↔ Sound c := by
  rw [sound_iff, List.eq_nil_iff_forall_not_mem]
  exact forall_congr' fun fault => not_congr mem_faults_iff

theorem check_eq_ok_iff {c : Config} : check c = .ok c ↔ faults c = [] := by
  unfold check
  split
  · next h => exact iff_of_true rfl h
  · next h => exact iff_of_false nofun h

/-! ## What is made of a sound configuration -/

/-- **The gates of a sound configuration can be assembled.** -/
theorem Sound.assembles {c : Config} (h : Sound c) (layers : Pipeline.Layers) :
    ∃ g, Pipeline.Guard.assemble c layers = .ok g := by
  obtain ⟨rules, hrules⟩ := h.routes
  obtain ⟨header, hheader⟩ := Option.isSome_iff_exists.1 (namesHeader_iff.2 h.headerName)
  exact ⟨_, by rw [Pipeline.Guard.assemble, hrules, hheader]⟩

/-- **Every breaker of a sound configuration has sound settings,** whatever its name. -/
theorem Sound.settingsFor {c : Config} (h : Sound c) (name : String) :
    (c.breaker.settingsFor name).Sound := by
  unfold Breaker.BreakerConfig.settingsFor
  cases hfind : List.lookup name c.breaker.instances with
  | none => exact h.breakerDefaults
  | some s => exact h.breakers (name, s) (Table.mem_of_lookup hfind)

/-- **Validation is complete and sufficient:** it accepts a configuration if that is sound, and only
then; of one that is not it reports the violated constraints, each once, and no other; and of one
that it accepts the gates can be assembled, whichever of them there are to be, and every breaker has
sound settings. -/
theorem check_complete (c : Config) :
    (check c = .ok c ↔ Sound c)
      ∧ (¬Sound c → check c = .error (.unsound (faults c)))
      ∧ (∀ fault, fault ∈ faults c ↔ Violated c fault)
      ∧ (c.breaker.instances.keys.Nodup → (faults c).Nodup)
      ∧ (check c = .ok c → (∀ layers, ∃ g, Pipeline.Guard.assemble c layers = .ok g)
        ∧ ∀ name, (c.breaker.settingsFor name).Sound) := by
  have haccepts : check c = .ok c ↔ Sound c := check_eq_ok_iff.trans faults_eq_nil_iff
  refine ⟨haccepts, fun hunsound => ?_, fun _ => mem_faults_iff, nodup_faults, fun hok => ?_⟩
  · unfold check
    split
    · next h => exact absurd (faults_eq_nil_iff.1 h) hunsound
    · rfl
  · have hsound := haccepts.1 hok
    exact ⟨hsound.assembles, hsound.settingsFor⟩

/-- A configuration that cannot be listened to, leaves requests no time, and has a breaker
without a window. -/
def unsound : Config :=
  { standard with
    bindAddress := "not-an-address"
    requestTimeoutSecs := 0
    breaker :=
      { standard.breaker with
        instances := [("billing", { Breaker.Settings.standard with slidingWindowSize := 0 })] } }

theorem faults_unsound :
    faults unsound
      = [.bindAddress "not-an-address", .requestTimeout,
          .breaker (some "billing") .slidingWindowSize] := by
  decide +kernel

/-- The standard configuration is sound, and the other one is not, for three reasons. -/
theorem check_complete_standard :
    Sound standard ∧ (∃ g, Pipeline.Guard.assemble standard .all = .ok g)
      ∧ check unsound = .error (.unsound (faults unsound))
      ∧ (faults unsound).Nodup
      ∧ Violated unsound (.breaker (some "billing") .slidingWindowSize) := by
  obtain ⟨haccepts, -, -, -, hmade⟩ := check_complete standard
  obtain ⟨hunsound, hreports, hfinds, honce, -⟩ := check_complete unsound
  have hok : check standard = .ok standard := check_eq_ok_iff.2 (by decide +kernel)
  have hdistinct : unsound.breaker.instances.keys.Nodup := List.nodup_singleton "billing"
  have hnot : ¬Sound unsound := fun h => nomatch (faults_eq_nil_iff.2 h).symm.trans faults_unsound
  refine ⟨haccepts.1 hok, (hmade hok).1 .all, hreports hnot, honce hdistinct, (hfinds _).1 ?_⟩
  rw [faults_unsound]
  simp

end Config
end Gatehouse
