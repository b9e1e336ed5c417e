/-
Which decimal numbers are read as doubles.

A significand of 64 bits at most becomes a double with a tiny relative error, and so does a power of
ten, so their product is finite if the number as it is written stays below the largest double by a
few steps (`realOf?_of_le`). No number is too small: a quotient ends at zero. Whatever number is
read, its double is one of the format (`realOf?_fits`).
-/
import Gatehouse.Json.Numeral
import Gatehouse.Proofs.Number.Rounding

set_option autoImplicit false

namespace Gatehouse.Json

open Gatehouse.Number

/-! ## Doubles of significands and of powers of ten -/

/-- The relative error of one rounding. -/
def halfStep : ℚ := 1 / 2 ^ 53

theorem double_precision_pos : 0 < BinaryFormat.double.precision := by decide

theorem double_range :
    BinaryFormat.double.minExponent ≤ BinaryFormat.double.maxExponent := by decide

theorem double_minExponent_le : BinaryFormat.double.minExponent ≤ 0 := by decide

/-- Half the step of the largest doubles. -/
def topHalfStep : Nat := 2 ^ 970

theorem topHalfStep_pos : 0 < topHalfStep := by decide +kernel

theorem cast_topHalfStep : (topHalfStep : ℚ) = 2 ^ (970 : Int) := by
  rw [topHalfStep, Nat.cast_pow, Nat.cast_ofNat, ← zpow_natCast]
  rfl

theorem cast_sub_mul_topHalfStep (k : Nat) (hk : k ≤ 2 ^ 54) :
    (((2 ^ 54 - k) * topHalfStep : Nat) : ℚ) = (2 ^ 54 - k) * topHalfStep := by
  -- the number itself plays no part here, and it is large
  generalize topHalfStep = unit
  rw [Nat.cast_mul, Nat.cast_sub hk, Nat.cast_pow, Nat.cast_ofNat]

/-- **The limit of doubles,** in units of half the step of the largest ones. -/
theorem double_limit : BinaryFormat.double.limit = (2 ^ 54 - 1) * topHalfStep := by
  rw [BinaryFormat.limit, show BinaryFormat.double.maxExponent = 970 + 1 from rfl,
    zpow_add_one₀ two_ne_zero, ← cast_topHalfStep, show BinaryFormat.double.precision = 53 from rfl]
  ring

theorem cast_lt_double_limit {n : Nat} (h : n < (2 ^ 54 - 1) * topHalfStep) :
    (n : ℚ) < BinaryFormat.double.limit := by
  rw [double_limit]
  calc (n : ℚ) < ((2 ^ 54 - 1) * topHalfStep : Nat) := Nat.cast_lt.2 h
    _ = (2 ^ 54 - 1) * topHalfStep := cast_sub_mul_topHalfStep 1 (by decide)

/-- Below the limit are all significands, and far more. -/
theorem two_pow_lt_double_limit : (2 : ℚ) ^ 66 < BinaryFormat.double.limit := by
  have hlt := cast_lt_double_limit (n := 2 ^ 66) (by decide +kernel)
  exact_mod_cast hlt

/-- The double of a whole number or of a power of ten is off by half a step at most. -/
theorem round_whole {n : Nat} (hn : 0 < n) (h : (n : ℚ) < BinaryFormat.double.limit) :
    BinaryFormat.double.Between (n / 2) (n * (1 + halfStep))
      (BinaryFormat.double.round false n 1) := by
  have hone : ((n : ℚ) / (1 : Nat)) = n := by rw [Nat.cast_one, div_one]
  have hnormal : (2 : ℚ) ^ (BinaryFormat.double.precision - 1)
      * 2 ^ BinaryFormat.double.minExponent ≤ n := by
    calc (2 : ℚ) ^ (BinaryFormat.double.precision - 1) * 2 ^ BinaryFormat.double.minExponent
        = 2 ^ (-1022 : Int) := by
          rw [two_pow_mul_zpow]
          rfl
      _ ≤ 1 := zpow_le_one_of_nonpos₀ one_le_two (by decide)
      _ ≤ n := by exact_mod_cast hn
  have hround :=
    BinaryFormat.round_of_normal double_precision_pos double_range false one_pos (n := n)
      (by rwa [hone]) (by rwa [hone])
  rwa [hone] at hround

/-- A significand is too large by half a step at most when it is rounded. -/
theorem ofNat_between {significand : Nat} (h : significand ≤ maxSignificand) :
    BinaryFormat.double.Between 0 (significand * (1 + halfStep))
      (BinaryFormat.double.ofNat significand) := by
  rcases Nat.eq_zero_or_pos significand with rfl | hpos
  · refine ⟨false, 0, BinaryFormat.double.minExponent, rfl, ⟨Nat.two_pow_pos _, double_range⟩,
      steps_nonneg _ _, ?_⟩
    rw [steps, Nat.cast_zero, zero_mul, zero_mul]
  · have hlimit : (significand : ℚ) < BinaryFormat.double.limit :=
      cast_lt_double_limit (lt_of_le_of_lt h (by decide +kernel))
    exact (round_whole hpos hlimit).mono (by positivity) le_rfl

/-- A power of ten is at least half of itself when it is rounded, and too large by half a step at
most. -/
theorem powerOfTen_between {n : Nat} (h : n ≤ greatestPower) :
    BinaryFormat.double.Between (10 ^ n / 2) (10 ^ n * (1 + halfStep)) (powerOfTen n) := by
  have hround : powerOfTen n = BinaryFormat.double.round false (10 ^ n) 1 := by
    have hsize : ((Nat.toDigits 10 1).length : Int) = 1 := by decide
    have hle : n ≤ 308 := h
    rw [powerOfTen, BinaryFormat.ofDecimal, hsize, if_neg one_ne_zero, if_neg (by omega),
      if_neg (by omega), one_mul]
    simp
  have hlimit : ((10 ^ n : Nat) : ℚ) < BinaryFormat.double.limit :=
    cast_lt_double_limit (lt_of_le_of_lt (Nat.pow_le_pow_right (by decide) h) (by decide +kernel))
  have hbetween := round_whole (Nat.pow_pos (by decide)) hlimit
  rw [hround]
  exact_mod_cast hbetween

/-! ## Scaling -/

section

variable {x : ℚ} {f : Binary} {exponent : Int}

/-- One round of scaling. -/
theorem scale_succ (fuel : Nat) (f : Binary) (exponent : Int) :
    scale (fuel + 1) f exponent
      = if exponent.natAbs ≤ greatestPower then
          if 0 ≤ exponent then
            match BinaryFormat.double.mul f (powerOfTen exponent.natAbs) with
            | .infinite _ => none
            | product => some product
          else some (BinaryFormat.double.div f (powerOfTen exponent.natAbs))
        else
          match f with
          | .finite _ 0 _ => some f
          | _ =>
            if 0 ≤ exponent then none
            else scale fuel (BinaryFormat.double.div f (powerOfTen greatestPower))
              (exponent + greatestPower) := rfl

/-- A product with a power of ten that stays below the limit. -/
theorem scale_of_nonneg (fuel : Nat) (hf : BinaryFormat.double.Between 0 x f) {n : Nat}
    (hn : n ≤ greatestPower) (h : x * (10 ^ n * (1 + halfStep)) < BinaryFormat.double.limit) :
    ∃ b high, scale (fuel + 1) f n = some b ∧ BinaryFormat.double.Between 0 high b := by
  have hproduct :=
    BinaryFormat.mul_between double_precision_pos double_range double_minExponent_le hf
      ((powerOfTen_between hn).mono (by positivity) le_rfl) h
  rw [scale_succ, Int.natAbs_natCast, if_pos hn, if_pos (Int.natCast_nonneg n)]
  obtain ⟨negative, mantissa, exponent, heq, hfits, hlow, hhigh⟩ := hproduct
  rw [heq]
  exact ⟨_, _, rfl, negative, mantissa, exponent, rfl, hfits, hlow, hhigh⟩

/-- The quotients that come up stay in this bound. -/
theorem div_powerOfTen_between (hf : BinaryFormat.double.Between 0 (2 ^ 65) f) {n : Nat}
    (hn : n ≤ greatestPower) :
    BinaryFormat.double.Between 0 (2 * (2 ^ 65 / (10 ^ n / 2)) + 1)
      (BinaryFormat.double.div f (powerOfTen n)) := by
  refine BinaryFormat.div_between double_precision_pos double_range double_minExponent_le hf
    (powerOfTen_between hn)
    (by positivity) ?_
  have hpower : (1 : ℚ) ≤ 10 ^ n := one_le_pow₀ (by norm_num)
  calc (2 : ℚ) ^ 65 / (10 ^ n / 2) ≤ 2 ^ 65 / (1 / 2) := by gcongr
    _ = 2 ^ 66 := by norm_num
    _ < BinaryFormat.double.limit := two_pow_lt_double_limit

/-- **No number is too small.** -/
theorem scale_of_neg (fuel : Nat) (hf : BinaryFormat.double.Between 0 (2 ^ 65) f)
    (h : exponent < 0) :
    ∃ b high, scale fuel f exponent = some b ∧ BinaryFormat.double.Between 0 high b := by
  induction fuel generalizing f exponent with
  | zero => exact ⟨f, _, rfl, hf⟩
  | succ fuel ih =>
    rw [scale_succ]
    split
    case isTrue hnear =>
      rw [if_neg (not_le.2 h)]
      exact ⟨_, _, rfl, div_powerOfTen_between hf hnear⟩
    case isFalse hfar =>
      split
      · exact ⟨_, _, rfl, hf⟩
      · rw [if_neg (not_le.2 h)]
        -- the exponent stays negative, and the quotient is far below the significand
        have hnext : exponent + greatestPower < 0 := by
          have hlarge : greatestPower < exponent.natAbs := not_le.1 hfar
          omega
        have hpower : (10 : ℚ) ^ 1 ≤ 10 ^ greatestPower :=
          pow_le_pow_right₀ (by norm_num) (by decide)
        refine ih ((div_powerOfTen_between hf le_rfl).mono le_rfl ?_) hnext
        calc 2 * ((2 : ℚ) ^ 65 / (10 ^ greatestPower / 2)) + 1
              ≤ 2 * ((2 : ℚ) ^ 65 / (10 ^ 1 / 2)) + 1 := by gcongr
          _ ≤ 2 ^ 65 := by norm_num

theorem scale_fits (fuel : Nat)
    (hf : ∀ negative mantissa e, f = .finite negative mantissa e →
      BinaryFormat.double.Fits mantissa e)
    {negative : Bool} {mantissa : Nat} {e : Int}
    (h : scale fuel f exponent = some (.finite negative mantissa e)) :
    BinaryFormat.double.Fits mantissa e := by
  induction fuel generalizing f exponent with
  | zero => exact hf negative mantissa e (Option.some.inj h)
  | succ fuel ih =>
    rw [scale_succ] at h
    split at h
    · split at h
      · split at h
        · cases h
        · exact BinaryFormat.mul_fits double_precision_pos double_range (Option.some.inj h)
      · exact BinaryFormat.div_fits double_precision_pos double_range (Option.some.inj h)
    · split at h
      · exact hf _ _ _ (Option.some.inj h)
      · split at h
        · cases h
        · exact ih (fun _ _ _ heq => BinaryFormat.div_fits double_precision_pos double_range heq) h

end

/-! ## Numerals -/

/-- **A number that the reader can give:** an integer of 64 bits, or a double. -/
def Numeral.Fits : Numeral → Prop
  | .integer value => -2 ^ 63 ≤ value ∧ value ≤ maxSignificand
  | .real _ mantissa exponent => BinaryFormat.double.Fits mantissa exponent

theorem realOf?_fits {negative : Bool} {significand : Nat} {exponent : Int} {n : Numeral}
    (h : realOf? negative significand exponent = some n) : n.Fits := by
  rw [realOf?, Option.bind_eq_some_iff] at h
  obtain ⟨b, hscale, hn⟩ := h
  cases b with
  | nan => cases hn
  | infinite => cases hn
  | finite s m e =>
    cases hn
    exact scale_fits 4
      (fun _ _ _ heq => BinaryFormat.round_fits double_precision_pos double_range one_pos heq)
      hscale

/-- How large a number may be as it is written. It is three and a half steps below the end of the
doubles, so two roundings up do not reach that. -/
def safeBound : Nat := (2 ^ 54 - 7) * topHalfStep

/-- A power of ten below that is one of those that are there. -/
theorem le_greatestPower {n : Nat} (h : (10 : ℚ) ^ n ≤ safeBound) : n ≤ greatestPower := by
  by_contra hover
  have hlt : safeBound < 10 ^ (greatestPower + 1) := by decide +kernel
  have hle : 10 ^ (greatestPower + 1) ≤ 10 ^ n := Nat.pow_le_pow_right (by decide) (not_le.1 hover)
  exact absurd (by exact_mod_cast h) (not_le.2 (hlt.trans_le hle))

/-- Two roundings of a number that is safe do not lead beyond the format. -/
theorem two_roundings_lt_limit {x : ℚ} (h : x ≤ safeBound) :
    x * ((1 + halfStep) * (1 + halfStep)) < BinaryFormat.double.limit := by
  have hstep : halfStep = 1 / 2 ^ 53 := rfl
  calc x * ((1 + halfStep) * (1 + halfStep)) ≤ safeBound * ((1 + halfStep) * (1 + halfStep)) :=
        mul_le_mul_of_nonneg_right h (by norm_num [hstep])
    _ < BinaryFormat.double.limit := by
        rw [safeBound, cast_sub_mul_topHalfStep 7 (by decide), double_limit, mul_right_comm]
        refine mul_lt_mul_of_pos_right ?_ (Nat.cast_pos.2 topHalfStep_pos)
        norm_num [hstep]

/-- **A number as it is written is read** if it is not close to the largest double. -/
theorem realOf?_of_le (negative : Bool) {significand : Nat} (exponent : Int)
    (hsize : significand ≤ maxSignificand)
    (h : significand = 0 ∨ exponent ≤ 0 ∨ (significand : ℚ) * 10 ^ exponent ≤ safeBound) :
    ∃ mantissa e, realOf? negative significand exponent = some (.real negative mantissa e) := by
  suffices hscale : ∃ b high, scale 4 (BinaryFormat.double.ofNat significand) exponent = some b
      ∧ BinaryFormat.double.Between 0 high b by
    obtain ⟨b, high, hb, s, m, e, rfl, -⟩ := hscale
    exact ⟨m, e, by rw [realOf?, hb]; rfl⟩
  have hstart := ofNat_between hsize
  have hstep : halfStep = 1 / 2 ^ 53 := rfl
  have hsmall : (significand : ℚ) * (1 + halfStep) ≤ 2 ^ 65 := by
    have hle : (significand : ℚ) ≤ 2 ^ 64 := by exact_mod_cast hsize.trans (by decide)
    calc (significand : ℚ) * (1 + halfStep) ≤ 2 ^ 64 * (1 + halfStep) := by
          gcongr
          norm_num [hstep]
      _ ≤ 2 ^ 65 := by norm_num [hstep]
  rcases lt_or_ge exponent 0 with hneg | hnonneg
  · exact scale_of_neg 4 (hstart.mono le_rfl hsmall) hneg
  obtain ⟨n, rfl⟩ := Int.eq_ofNat_of_zero_le hnonneg
  rcases Nat.eq_zero_or_pos significand with rfl | hpos
  · by_cases hn : n ≤ greatestPower
    · refine scale_of_nonneg 3 hstart hn ?_
      rw [Nat.cast_zero, zero_mul, zero_mul]
      exact lt_trans (by norm_num) two_pow_lt_double_limit
    · refine ⟨_, _, ?_, hstart⟩
      exact (scale_succ _ _ _).trans (if_neg hn)
  · have hone : (1 : ℚ) ≤ significand := by exact_mod_cast hpos
    have hbound : (significand : ℚ) * 10 ^ n ≤ safeBound := by
      rcases h with hzero | hle | hbound
      · omega
      · obtain rfl : n = 0 := by omega
        rw [pow_zero, mul_one]
        refine (le_mul_of_one_le_right (by positivity) ?_).trans (hsmall.trans ?_)
        · norm_num [hstep]
        · have hle : 2 ^ 65 ≤ safeBound := by decide +kernel
          exact_mod_cast hle
      · exact_mod_cast hbound
    have hpower : (10 : ℚ) ^ n ≤ safeBound :=
      (le_mul_of_one_le_left (by positivity) hone).trans hbound
    refine scale_of_nonneg 3 hstart (le_greatestPower hpower) ?_
    calc (significand : ℚ) * (1 + halfStep) * (10 ^ n * (1 + halfStep))
        = significand * 10 ^ n * ((1 + halfStep) * (1 + halfStep)) := by ring
      _ < BinaryFormat.double.limit := two_roundings_lt_limit hbound

end Gatehouse.Json
