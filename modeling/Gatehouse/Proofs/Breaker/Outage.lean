/-
What a breaker makes of calls that all end alike.

While every call succeeds the failure rate is zero, and no threshold is: the breaker stays closed.
While every call fails the rate is one hundred percent, and no threshold is above that. But the rate
is computed with three roundings: of the count of calls, of its product with 100, and of their
quotient. The second one is relative to a number that may lie just above a power of two, while the
quotient lies well above one. What it takes away can then be more than half of the last place of
100, and the quotient is rounded down to the number before 100 (`failureRate_self_cases`). A breaker
with the threshold 100 does not open at such a count (`opensInTime_iff`); and if its window holds no
more calls than that, it never opens (`closed_of_rate_below`).

That takes a count above 671088. Up to there the product has no more bits than a mantissa, and
nothing is taken away (`not_fallsShort`).
-/
import Gatehouse.Proofs.Breaker.SlidingWindow
import Gatehouse.Proofs.Config.Soundness
import Gatehouse.Proofs.Number.Nearest

set_option autoImplicit false

namespace Gatehouse.Breaker

open Gatehouse.Number Gatehouse.Number.BinaryFormat

/-! ## The rate when every call fails -/

theorem single_precision_pos : 0 < BinaryFormat.single.precision := by decide

theorem single_range :
    BinaryFormat.single.minExponent ≤ BinaryFormat.single.maxExponent := by decide

theorem two_pow_lt_single_limit : (2 : ℚ) ^ 100 < BinaryFormat.single.limit := by
  norm_num [BinaryFormat.limit, BinaryFormat.single]

/-- A quotient that is neither tiny nor huge is rounded with a relative error of half the last
bit. -/
theorem single_round_near {n d : Nat} (hd : 0 < d) (hlow : (1 / 2 : ℚ) ≤ n / d)
    (hhigh : (n / d : ℚ) ≤ 2 ^ 100) :
    ∃ x, (BinaryFormat.single.round false n d).IsMagnitude x ∧ |x - n / d| ≤ n / d / 2 ^ 24 := by
  refine round_near single_precision_pos single_range hd (le_trans ?_ hlow)
    (hhigh.trans_lt two_pow_lt_single_limit)
  norm_num [BinaryFormat.single]

/-- A count, rounded. -/
theorem count_near {calls : Nat} (hpos : 0 < calls) (hsize : calls < 2 ^ 64) :
    ∃ count, (BinaryFormat.single.ofNat calls).IsMagnitude count
      ∧ |count - calls| ≤ calls / 2 ^ 24 := by
  have hwhole : ((calls : ℚ) / (1 : Nat)) = calls := by rw [Nat.cast_one, div_one]
  have hone : (1 : ℚ) ≤ calls := by exact_mod_cast hpos
  have hbound : (calls : ℚ) < 2 ^ 64 := by exact_mod_cast hsize
  have hnear := single_round_near (n := calls) Nat.one_pos (by rw [hwhole]; linarith)
    (by rw [hwhole]; exact hbound.le.trans (by norm_num))
  rwa [hwhole] at hnear

theorem hundred_isMagnitude : (BinaryFormat.single.ofNat 100).IsMagnitude 100 := by
  have hdatum : BinaryFormat.single.ofNat 100 = .finite false 13107200 (-17) := by decide
  refine ⟨_, _, hdatum, ?_⟩
  norm_num [steps]

/-- The product of a count and 100, rounded. -/
theorem product_near {b : Binary} {count : ℚ} (hcount : b.IsMagnitude count) (hlow : 1 / 2 ≤ count)
    (hhigh : count ≤ 2 ^ 65) :
    ∃ product, (BinaryFormat.single.mul b (BinaryFormat.single.ofNat 100)).IsMagnitude product
      ∧ |product - count * 100| ≤ count * 100 / 2 ^ 24 := by
  obtain ⟨n, d, hround, hd, hquotient⟩ :=
    mul_eq_round (f := BinaryFormat.single) hcount hundred_isMagnitude
  rw [hround, ← hquotient]
  refine single_round_near hd ?_ ?_
  · rw [hquotient]
    linarith
  · rw [hquotient]
    calc count * 100 ≤ 2 ^ 65 * 100 := by gcongr
      _ ≤ 2 ^ 100 := by norm_num

/-- **The product falls short:** what the rounding of the product takes away is more than half of
the last place of 100, for every call. -/
def FallsShort (calls : Nat) : Prop :=
  ∃ count product, (BinaryFormat.single.ofNat calls).toRat? = some count
    ∧ (BinaryFormat.single.mul (BinaryFormat.single.ofNat calls)
        (BinaryFormat.single.ofNat 100)).toRat? = some product
    ∧ product < (100 - 1 / 2 ^ 18) * count

/-- **A quotient close to 100** is rounded to 100 or more from half of the last place below 100 on,
and to the number before 100 otherwise. -/
theorem round_hundred {n d : Nat} (hd : 0 < d) (hlow : (100 - 1 / 2 ^ 17 : ℚ) ≤ n / d)
    (hhigh : (n / d : ℚ) < 128) :
    ∃ rate, (BinaryFormat.single.round false n d).IsMagnitude rate
      ∧ ((100 - 1 / 2 ^ 18 : ℚ) ≤ n / d ∧ 100 ≤ rate
          ∨ (n / d : ℚ) < 100 - 1 / 2 ^ 18 ∧ rate = 100 - 1 / 2 ^ 17) := by
  have hn : 0 < n := by
    refine Nat.pos_of_ne_zero ?_
    rintro rfl
    rw [Nat.cast_zero, zero_div] at hlow
    norm_num at hlow
  have hexponent : BinaryFormat.single.exponentFor n d = -17 := by
    refine exponentFor_eq single_precision_pos hn hd (by decide) (le_trans ?_ hlow)
      (hhigh.trans_le ?_)
    · norm_num [BinaryFormat.single]
    · norm_num [BinaryFormat.single]
  have hround := round_isMagnitude single_precision_pos single_range hn hd
    (hhigh.trans (lt_trans (by norm_num) two_pow_lt_single_limit))
  rw [hexponent] at hround
  refine ⟨_, hround, ?_⟩
  have hmeasured := stepNumerator_div n hd (-17)
  have hsteps := stepDenominator_pos hd (-17)
  have hleast := sub_half_le_roundHalfEven (stepNumerator n (-17)) hsteps
  have heven :=
    even_le_roundHalfEven_iff (k := 13107200) (n := stepNumerator n (-17)) hsteps (by decide)
  rw [hmeasured] at hleast heven
  generalize roundHalfEven (stepNumerator n (-17)) (stepDenominator d (-17)) = m at hleast heven ⊢
  have hscale : (2 : ℚ) ^ (-(-17) : Int) = 131072 := by norm_num
  rw [hscale] at hleast heven
  have hvalue : steps m (-17) = m / 131072 := by
    rw [steps, zpow_neg, ← div_eq_mul_inv]
    norm_num
  rw [hvalue]
  rcases le_or_gt (100 - 1 / 2 ^ 18 : ℚ) (n / d) with hhalf | hhalf
  · have hreached : 13107200 ≤ m := heven.2 (by push_cast; linarith)
    have hcast : (13107200 : ℚ) ≤ m := by exact_mod_cast hreached
    refine .inl ⟨hhalf, ?_⟩
    rw [le_div_iff₀ (by norm_num)]
    linarith
  · have hmissed : ¬13107200 ≤ m := by
      rw [heven]
      push_cast
      linarith
    have hnext : 13107199 ≤ m := by
      have hcast : (13107198 : ℚ) < m := by linarith
      exact_mod_cast hcast
    obtain rfl : m = 13107199 := by omega
    refine .inr ⟨hhalf, ?_⟩
    norm_num

/-- **The failure rate when every call fails.** -/
theorem failureRate_self_cases {calls : Nat} (hpos : 0 < calls) (hsize : calls < 2 ^ 64) :
    ∃ rate, (failureRate calls calls).toRat? = some rate
      ∧ (¬FallsShort calls ∧ 100 ≤ rate ∨ FallsShort calls ∧ rate = 100 - 1 / 2 ^ 17) := by
  obtain ⟨count, hcount, hcountNear⟩ := count_near hpos hsize
  rw [abs_le] at hcountNear
  have hone : (1 : ℚ) ≤ calls := by exact_mod_cast hpos
  have hbound : (calls : ℚ) < 2 ^ 64 := by exact_mod_cast hsize
  have hlow : 1 / 2 ≤ count := by linarith [hcountNear.1]
  have hhigh : count ≤ 2 ^ 65 := by linarith [hcountNear.2]
  obtain ⟨product, hproduct, hproductNear⟩ := product_near hcount hlow hhigh
  rw [abs_le] at hproductNear
  have hcountPos : 0 < count := by linarith
  obtain ⟨n, d, hround, hd, hquotient⟩ :=
    div_eq_round (f := BinaryFormat.single) hproduct hcount hcountPos
  obtain ⟨rate, hrate, hcase⟩ := round_hundred hd
    (by rw [hquotient, le_div_iff₀ hcountPos]; linarith [hproductNear.1])
    (by rw [hquotient, div_lt_iff₀ hcountPos]; linarith [hproductNear.2])
  have hfalls : FallsShort calls ↔ product < (100 - 1 / 2 ^ 18) * count := by
    rw [FallsShort, hcount.toRat?, hproduct.toRat?]
    simp
  refine ⟨rate, ?_, ?_⟩
  · rw [← hrate.toRat?, ← hround]
    rfl
  · rwa [hquotient, le_div_iff₀ hcountPos, div_lt_iff₀ hcountPos, ← not_lt, ← hfalls] at hcase

/-- **Which thresholds a rate of one hundred percent reaches.** -/
theorem le_failureRate_self_iff {calls : Nat} (hpos : 0 < calls) (hsize : calls < 2 ^ 64)
    {b : Binary} {threshold : ℚ} (hthreshold : b.toRat? = some threshold) (hle : threshold ≤ 100) :
    b.le (failureRate calls calls) = true ↔ threshold ≤ 100 - 1 / 2 ^ 17 ∨ ¬FallsShort calls := by
  obtain ⟨rate, hrate, ⟨hnot, hfull⟩ | ⟨hfalls, rfl⟩⟩ := failureRate_self_cases hpos hsize
  · rw [Binary.le_iff hthreshold hrate]
    exact iff_of_true (hle.trans hfull) (.inr hnot)
  · rw [Binary.le_iff hthreshold hrate]
    exact ⟨.inl, fun h => h.resolve_right (not_not.2 hfalls)⟩

/-- **A product that needs no more bits than a mantissa has** does not fall short: neither the count
is rounded nor the product. -/
theorem not_fallsShort {calls : Nat} (hpos : 0 < calls) (hsmall : 25 * calls < 2 ^ 24) :
    ¬FallsShort calls := by
  have hwhole : ((calls : ℚ) / (1 : Nat)) = steps calls 0 := by
    rw [Nat.cast_one, div_one, steps, zpow_zero, mul_one]
  have hcount : (BinaryFormat.single.ofNat calls).IsMagnitude calls := by
    have hfits : BinaryFormat.single.Fits calls 0 := ⟨lt_of_le_of_lt (by omega) hsmall, by decide⟩
    have hexact :=
      round_exact single_precision_pos single_range Nat.one_pos hfits (by decide) hwhole
    rwa [Nat.cast_one, div_one] at hexact
  obtain ⟨n, d, hround, hd, hquotient⟩ :=
    mul_eq_round (f := BinaryFormat.single) hcount hundred_isMagnitude
  have hfits : BinaryFormat.single.Fits (25 * calls) 2 := ⟨hsmall, by decide⟩
  have hproduct := round_exact (n := n) single_precision_pos single_range hd hfits (by decide) <| by
    rw [hquotient, steps]
    push_cast
    ring
  rw [← hround, hquotient] at hproduct
  rintro ⟨count, product, hcountIs, hproductIs, hlt⟩
  rw [hcount.toRat?, Option.some.injEq] at hcountIs
  rw [hproduct.toRat?, Option.some.injEq] at hproductIs
  have hpositive : (0 : ℚ) < calls := Nat.cast_pos.2 hpos
  rw [← hcountIs, ← hproductIs] at hlt
  linarith

/-! ## The rate when no call fails -/

theorem failureRate_zero {calls : Nat} (hpos : 0 < calls) (hsize : calls < 2 ^ 64) :
    (failureRate 0 calls).toRat? = some 0 := by
  obtain ⟨count, hcount, hnear⟩ := count_near hpos hsize
  rw [abs_le] at hnear
  have hone : (1 : ℚ) ≤ calls := by exact_mod_cast hpos
  have hcountPos : 0 < count := by linarith [hnear.1]
  have hproduct :
      (BinaryFormat.single.mul (BinaryFormat.single.ofNat 0)
        (BinaryFormat.single.ofNat 100)).IsMagnitude 0 :=
    ⟨0, -149, by decide, by rw [steps, Nat.cast_zero, zero_mul]⟩
  obtain ⟨n, d, hround, hd, hquotient⟩ :=
    div_eq_round (f := BinaryFormat.single) hproduct hcount hcountPos
  rw [zero_div] at hquotient
  have hfits : BinaryFormat.single.Fits 0 0 := ⟨by decide, by decide⟩
  have hrate := round_exact (n := n) single_precision_pos single_range hd hfits (by decide) <| by
    rw [hquotient, steps, Nat.cast_zero, zero_mul]
  rw [← hround, hquotient] at hrate
  exact hrate.toRat?

/-! ## Histories in which all calls end alike -/

/-- **Whether outcomes ask a breaker to open:** they are as many as are needed, and their failure
rate reaches the threshold. -/
def Settings.Asks (s : Settings) (outcomes : List Bool) : Prop :=
  min s.minimumNumberOfCalls s.slidingWindowSize ≤ outcomes.length
    ∧ s.failureRateThreshold.le (failureRate (outcomes.count true) outcomes.length) = true

namespace CircuitBreaker

/-- **Every call that ends in the course of a history ends alike,** in success or in failure. -/
def AllEnd (failed : Bool) (history : List TimedOperation) : Prop :=
  ∀ outcome ∈ outcomesOf history, outcome = failed

theorem AllEnd.past {failed : Bool} {past history : List TimedOperation} (h : AllEnd failed history)
    (hpast : past <+: history) : AllEnd failed past :=
  fun outcome hmem => h outcome ((hpast.filterMap _).subset hmem)

theorem AllEnd.outcomesOf_eq {failed : Bool} {history : List TimedOperation}
    (h : AllEnd failed history) :
    outcomesOf history = List.replicate (outcomesOf history).length failed :=
  List.eq_replicate_of_mem h

/-- What a window holds of outcomes that are all alike. -/
theorem AllEnd.rtake_eq {failed : Bool} {history : List TimedOperation} (h : AllEnd failed history)
    (limit : Nat) :
    (outcomesOf history).rtake limit
      = List.replicate (min (outcomesOf history).length limit) failed := by
  rw [h.outcomesOf_eq, List.rtake, List.drop_replicate, List.length_replicate]
  congr 1
  omega

/-- So many calls fail at once. -/
def failures (count : Nat) : List TimedOperation := List.replicate count ⟨0, .fail⟩

theorem outcomesOf_failures (count : Nat) :
    outcomesOf (failures count) = List.replicate count true := by
  rw [outcomesOf, failures, List.filterMap_replicate]
  rfl

theorem allEnd_failures (count : Nat) : AllEnd true (failures count) := by
  intro outcome hmem
  rw [outcomesOf_failures] at hmem
  exact List.eq_of_mem_replicate hmem

/-- A closed breaker stays closed or opens, and it opens only at an outcome. -/
theorem closed_or_opened {b : CircuitBreaker} (h : b.state = .closed) (x : TimedOperation) :
    (b.perform x.time x.operation).2.state = .closed
      ∨ (∃ failed, x.operation.outcome? = some failed)
        ∧ (b.perform x.time x.operation).2.state = .opened := by
  cases stateStep b x with
  | stays hstate => exact .inl (hstate.trans h)
  | opens hoperation _ hafter =>
    refine .inr ⟨?_, hafter⟩
    rcases hoperation with hsucceed | hfail
    · exact ⟨false, by rw [hsucceed]; rfl⟩
    · exact ⟨true, by rw [hfail]; rfl⟩
  | probes _ hbefore => cases h.symm.trans hbefore
  | closes _ hbefore => cases h.symm.trans hbefore
  | reopens _ hbefore => cases h.symm.trans hbefore

/-- **A breaker that is never asked to open stays closed,** and its window holds the last
outcomes. -/
theorem closed_of_never_asked (settings : Settings) (history : List TimedOperation)
    (h : ∀ past, past <+: history →
      ¬settings.Asks ((outcomesOf past).rtake settings.slidingWindowSize)) :
    ((ofSettings settings).performAll history).state = .closed
      ∧ ((ofSettings settings).performAll history).window.Holds
          ((outcomesOf history).rtake settings.slidingWindowSize) := by
  induction history using List.reverseRecOn with
  | nil => exact ⟨rfl, Window.holds_empty _⟩
  | append_singleton history x ih =>
    obtain ⟨hclosed, hholds⟩ :=
      ih fun past hpast => h past (hpast.trans (List.prefix_append history [x]))
    have hsettings : ((ofSettings settings).performAll history).settings = settings :=
      settings_performAll (ofSettings settings) history
    have hnever := h (history ++ [x]) (List.prefix_refl _)
    rw [outcomesOf_concat] at hnever
    rw [performAll_concat, outcomesOf_concat]
    cases windowStep ((ofSettings settings).performAll history) x with
    | records failed houtcome _ hwindow hopens =>
      rw [hsettings] at hwindow hopens
      have hafter := hholds.record failed
      rw [houtcome] at hnever ⊢
      rw [← hwindow] at hafter
      refine ⟨(closed_or_opened hclosed x).resolve_right fun hopened => ?_, hafter⟩
      exact hnever ((settings.trips_iff hafter).1 (hopens.1 hopened.2))
    | keeps hnothing hwindow _ =>
      rw [hnothing hclosed, hwindow, Option.toList_none, List.append_nil]
      refine ⟨(closed_or_opened hclosed x).resolve_right fun hopened => ?_, hholds⟩
      obtain ⟨failed, houtcome⟩ := hopened.1
      cases (hnothing hclosed).symm.trans houtcome
    | clears hbefore => cases hclosed.symm.trans hbefore

theorem length_rtake_le (limit : Nat) (outcomes : List Bool) :
    (outcomes.rtake limit).length ≤ outcomes.length := by
  rw [List.rtake, List.length_drop]
  exact Nat.sub_le _ _

/-- As long as fewer outcomes are recorded than are needed, nothing opens a breaker. -/
theorem closed_of_few {settings : Settings} {history : List TimedOperation}
    (h : (outcomesOf history).length
      < min settings.minimumNumberOfCalls settings.slidingWindowSize) :
    ((ofSettings settings).performAll history).state = .closed
      ∧ ((ofSettings settings).performAll history).window.Holds
          ((outcomesOf history).rtake settings.slidingWindowSize) := by
  refine closed_of_never_asked settings history fun past hpast hasks => ?_
  have hkept := length_rtake_le settings.slidingWindowSize (outcomesOf past)
  have hlength := (hpast.filterMap fun x => x.operation.outcome?).length_le
  exact absurd (hasks.1.trans (hkept.trans hlength)) (Nat.not_le_of_lt h)

/-- **While every call succeeds** a breaker stays closed. -/
theorem closed_of_successes {settings : Settings} (hsound : settings.Sound)
    (hsize : settings.slidingWindowSize < 2 ^ 64) {history : List TimedOperation}
    (h : AllEnd false history) :
    ((ofSettings settings).performAll history).state = .closed := by
  refine (closed_of_never_asked settings history fun past hpast hasks => ?_).1
  obtain ⟨threshold, hthreshold, hpositive, -⟩ := hsound.threshold
  obtain ⟨henough, hreached⟩ := hasks
  have hwindow := hsound.window
  have hcalls := hsound.calls
  have hnoFailure : (List.replicate (min (outcomesOf past).length settings.slidingWindowSize)
      false).count true = 0 :=
    List.count_eq_zero.2 fun hmem => nomatch List.eq_of_mem_replicate hmem
  rw [(h.past hpast).rtake_eq, List.length_replicate] at henough hreached
  rw [hnoFailure, Binary.le_iff hthreshold (failureRate_zero (by omega) (by omega))] at hreached
  exact absurd hreached (not_le.2 hpositive)

/-- **While every call fails,** the outcome that completes the number that is needed opens a breaker
exactly if the rate at that number reaches the threshold. -/
theorem opened_iff_of_failures {settings : Settings} {history : List TimedOperation}
    {x : TimedOperation} (hall : AllEnd true (history ++ [x])) (hfail : x.operation = .fail)
    (hlength : (outcomesOf (history ++ [x])).length
      = min settings.minimumNumberOfCalls settings.slidingWindowSize) :
    ((ofSettings settings).performAll (history ++ [x])).state = .opened
      ↔ settings.failureRateThreshold.le
          (failureRate (outcomesOf (history ++ [x])).length (outcomesOf (history ++ [x])).length)
            = true := by
  have houtcome : x.operation.outcome? = some true := by rw [hfail]; rfl
  have hone : (outcomesOf (history ++ [x])).length = (outcomesOf history).length + 1 := by
    rw [outcomesOf_concat, houtcome]
    exact List.length_append
  have hfew : (outcomesOf history).length
      < min settings.minimumNumberOfCalls settings.slidingWindowSize := by omega
  obtain ⟨hclosed, hholds⟩ := closed_of_few hfew
  have hsettings : ((ofSettings settings).performAll history).settings = settings :=
    settings_performAll (ofSettings settings) history
  have hkept := hall.rtake_eq settings.slidingWindowSize
  rw [hlength, Nat.min_eq_left (Nat.min_le_right _ _), ← hlength] at hkept
  rw [performAll_concat]
  cases windowStep ((ofSettings settings).performAll history) x with
  | records failed hfound _ hwindow hopens =>
    obtain rfl : failed = true := Option.some.inj (hfound.symm.trans houtcome)
    rw [hsettings] at hwindow hopens
    have hafter := hholds.record true
    have hconcat : outcomesOf (history ++ [x]) = outcomesOf history ++ [true] := by
      rw [outcomesOf_concat, houtcome]
      rfl
    rw [← hwindow, ← hconcat, hkept] at hafter
    rw [hopens, settings.trips_iff hafter, List.length_replicate, List.count_replicate_self]
    exact and_iff_right hlength.ge
  | keeps hnothing => cases (hnothing hclosed).symm.trans houtcome
  | clears hbefore => cases hclosed.symm.trans hbefore

/-- **A rate of one hundred percent that is rounded to less than the threshold** never opens a
breaker whose window holds no more calls than are needed, however many fail. -/
theorem closed_of_rate_below {settings : Settings}
    (hwindow : settings.slidingWindowSize ≤ settings.minimumNumberOfCalls)
    (hbelow : settings.failureRateThreshold.le
      (failureRate settings.slidingWindowSize settings.slidingWindowSize) = false)
    {history : List TimedOperation} (h : AllEnd true history) :
    ((ofSettings settings).performAll history).state = .closed := by
  refine (closed_of_never_asked settings history fun past hpast hasks => ?_).1
  obtain ⟨henough, hreached⟩ := hasks
  rw [(h.past hpast).rtake_eq, List.length_replicate, Nat.min_eq_right hwindow] at henough
  have hfull : min (outcomesOf past).length settings.slidingWindowSize
      = settings.slidingWindowSize :=
    Nat.le_antisymm (Nat.min_le_right _ _) henough
  rw [(h.past hpast).rtake_eq, hfull, List.count_replicate_self, List.length_replicate,
    hbelow] at hreached
  cases hreached

/-- **A breaker opens in time** when every call fails: the outcome that completes the number that is
needed leaves it open. -/
def OpensInTime (settings : Settings) : Prop :=
  ∀ (history : List TimedOperation) (x : TimedOperation), AllEnd true (history ++ [x]) →
    x.operation = .fail →
    (outcomesOf (history ++ [x])).length
      = min settings.minimumNumberOfCalls settings.slidingWindowSize →
    ((ofSettings settings).performAll (history ++ [x])).state = .opened

theorem opensInTime_iff_le {settings : Settings} (hsound : settings.Sound) :
    OpensInTime settings
      ↔ settings.failureRateThreshold.le
          (failureRate (min settings.minimumNumberOfCalls settings.slidingWindowSize)
            (min settings.minimumNumberOfCalls settings.slidingWindowSize)) = true := by
  constructor
  · intro h
    obtain ⟨needed, hneeded⟩ : ∃ needed,
        needed + 1 = min settings.minimumNumberOfCalls settings.slidingWindowSize :=
      ⟨min settings.minimumNumberOfCalls settings.slidingWindowSize - 1, by
        have hwindow := hsound.window
        have hcalls := hsound.calls
        omega⟩
    have hconcat : failures needed ++ [⟨0, .fail⟩] = failures (needed + 1) :=
      (List.replicate_succ').symm
    have hlength : (outcomesOf (failures needed ++ [⟨0, .fail⟩])).length
        = min settings.minimumNumberOfCalls settings.slidingWindowSize := by
      rw [hconcat, outcomesOf_failures, List.length_replicate, hneeded]
    have hall : AllEnd true (failures needed ++ [⟨0, .fail⟩]) := by
      rw [hconcat]
      exact allEnd_failures _
    rw [← hlength, ← opened_iff_of_failures hall rfl hlength]
    exact h _ _ hall rfl hlength
  · intro h history x hall hfail hlength
    rw [opened_iff_of_failures hall hfail hlength, hlength]
    exact h

/-- **Outage and health.** For all settings that validation accepts, with a window size that is a
machine word: a breaker of which every recorded call succeeds stays closed. One of which every
recorded call fails is closed as long as fewer are recorded than are needed. The last one needed
opens it exactly if the threshold is not above the number before 100, or the product of the number
needed and 100 does not fall short; and always if no more than 671088 are needed. -/
theorem opensInTime_iff (settings : Settings) (haccepted : Config.breakerFaults settings = [])
    (hsize : settings.slidingWindowSize < 2 ^ 64) :
    (∀ history, AllEnd false history → ((ofSettings settings).performAll history).state = .closed)
      ∧ (∀ history, AllEnd true history →
        (outcomesOf history).length < min settings.minimumNumberOfCalls settings.slidingWindowSize →
        ((ofSettings settings).performAll history).state = .closed)
      ∧ (OpensInTime settings
        ↔ (∃ threshold, settings.failureRateThreshold.toRat? = some threshold
            ∧ threshold ≤ 100 - 1 / 2 ^ 17)
          ∨ ¬FallsShort (min settings.minimumNumberOfCalls settings.slidingWindowSize))
      ∧ (min settings.minimumNumberOfCalls settings.slidingWindowSize ≤ 671088 →
          OpensInTime settings) := by
  have hsound := Config.breakerFaults_eq_nil_iff.1 haccepted
  obtain ⟨threshold, hthreshold, -, hle⟩ := hsound.threshold
  have hneeded : 0 < min settings.minimumNumberOfCalls settings.slidingWindowSize :=
    Nat.lt_min.2 ⟨hsound.calls, hsound.window⟩
  have hword : min settings.minimumNumberOfCalls settings.slidingWindowSize < 2 ^ 64 :=
    lt_of_le_of_lt (Nat.min_le_right _ _) hsize
  have hopens : OpensInTime settings
      ↔ threshold ≤ 100 - 1 / 2 ^ 17
        ∨ ¬FallsShort (min settings.minimumNumberOfCalls settings.slidingWindowSize) :=
    (opensInTime_iff_le hsound).trans (le_failureRate_self_iff hneeded hword hthreshold hle)
  refine ⟨fun history h => closed_of_successes hsound hsize h,
    fun history _ hfew => (closed_of_few hfew).1, ?_,
    fun hsmall => hopens.2 (.inr (not_fallsShort hneeded (by omega)))⟩
  rw [hopens, hthreshold]
  simp

/-- A breaker that opens when all of 201 calls have failed. -/
def everyCallFails : Settings :=
  { failureRateThreshold := BinaryFormat.single.ofNat 100, slidingWindowSize := 256,
    minimumNumberOfCalls := 201, waitDurationMs := 60000, permittedCallsInHalfOpenState := 2 }

/-- It is closed after 200 failures and open after one more. -/
theorem opensInTime_iff_everyCallFails :
    Config.breakerFaults everyCallFails = [] ∧ everyCallFails.slidingWindowSize < 2 ^ 64
      ∧ ((ofSettings everyCallFails).performAll (failures 200)).state = .closed
      ∧ ((ofSettings everyCallFails).performAll (failures 200 ++ [⟨0, .fail⟩])).state
        = .opened := by
  have haccepted : Config.breakerFaults everyCallFails = [] := by decide
  have hsize : everyCallFails.slidingWindowSize < 2 ^ 64 := by decide
  obtain ⟨-, hfew, -, hsmall⟩ := opensInTime_iff everyCallFails haccepted hsize
  have hconcat : failures 200 ++ [⟨0, .fail⟩] = failures 201 := (List.replicate_succ').symm
  refine ⟨haccepted, hsize, hfew _ (allEnd_failures 200) ?_, hsmall (by decide) _ _ ?_ rfl ?_⟩
  · rw [outcomesOf_failures, List.length_replicate]
    decide
  · rw [hconcat]
    exact allEnd_failures 201
  · rw [hconcat, outcomesOf_failures, List.length_replicate]
    decide

/-- A breaker whose window holds the least number of calls at which the product falls short, all of
which are needed. -/
def wideWindow : Settings :=
  { failureRateThreshold := BinaryFormat.single.ofNat 100, slidingWindowSize := 671089,
    minimumNumberOfCalls := 671089, waitDurationMs := 60000, permittedCallsInHalfOpenState := 1 }

/-- It is accepted, and it is closed when 671089 calls have failed and none has succeeded. -/
theorem not_opensInTime_wideWindow :
    Config.breakerFaults wideWindow = []
      ∧ ((ofSettings wideWindow).performAll (failures 671089)).state = .closed
      ∧ ¬OpensInTime wideWindow := by
  have haccepted : Config.breakerFaults wideWindow = [] := by decide
  have hbelow : wideWindow.failureRateThreshold.le
      (failureRate wideWindow.slidingWindowSize wideWindow.slidingWindowSize) = false := by decide
  refine ⟨haccepted, closed_of_rate_below (Nat.le_refl _) hbelow (allEnd_failures _), ?_⟩
  rw [opensInTime_iff_le (Config.breakerFaults_eq_nil_iff.1 haccepted)]
  exact Bool.not_eq_true _ ▸ hbelow

end CircuitBreaker
end Gatehouse.Breaker
