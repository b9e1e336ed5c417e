/-
How far rounding goes.

A quotient that is rounded is measured in steps at which it fills the mantissa
(`exponentFor_bounds`), and comes out half a step too large at most. So a number in the normal
range grows by a relative error of half the last bit (`round_of_normal`), any other by a tiny
amount, and a quotient that is not above the largest finite number by half a step or more is
rounded to a finite number (`round_of_lt`). What is bounded here is always the magnitude; signs
play no part in rounding.
-/
import Gatehouse.Number.Binary
import Mathlib

set_option autoImplicit false

namespace Gatehouse.Number

/-- The magnitude of a finite datum. -/
def steps (mantissa : Nat) (exponent : Int) : ℚ := mantissa * 2 ^ exponent

namespace BinaryFormat

/-- The bound of what is rounded to a finite number: half a step above the largest one. -/
def limit (f : BinaryFormat) : ℚ := (2 ^ f.precision - 1 / 2) * 2 ^ f.maxExponent

/-- **A magnitude of the format:** the mantissa has no more bits than there are, and the
exponent is in reach. -/
def Fits (f : BinaryFormat) (mantissa : Nat) (exponent : Int) : Prop :=
  mantissa < 2 ^ f.precision ∧ exponent ≤ f.maxExponent

/-- **A datum is a finite number of the format** and lies between two magnitudes. -/
def Between (f : BinaryFormat) (low high : ℚ) (b : Binary) : Prop :=
  ∃ negative mantissa exponent, b = .finite negative mantissa exponent ∧ f.Fits mantissa exponent
    ∧ low ≤ steps mantissa exponent ∧ steps mantissa exponent ≤ high

end BinaryFormat

theorem steps_nonneg (mantissa : Nat) (exponent : Int) : 0 ≤ steps mantissa exponent := by
  unfold steps
  positivity

/-! ## Shifts as powers of two -/

/-- What a shift that goes one way or the other comes to. -/
theorem pow_toNat_mul {base : ℚ} (hbase : base ≠ 0) (e : Int) :
    base ^ (-e).toNat = base ^ (-e) * base ^ e.toNat := by
  rcases le_total 0 e with he | he
  · have hnone : (-e).toNat = 0 := by omega
    have hself : ((e.toNat : Nat) : Int) = e := Int.toNat_of_nonneg he
    rw [hnone, pow_zero, ← zpow_natCast base e.toNat, hself, ← zpow_add₀ hbase,
      neg_add_cancel, zpow_zero]
  · have hnone : e.toNat = 0 := by omega
    have hself : (((-e).toNat : Nat) : Int) = -e := Int.toNat_of_nonneg (by omega)
    rw [hnone, pow_zero, mul_one, ← zpow_natCast base (-e).toNat, hself]

/-- A number of steps that is a power of two. -/
theorem two_pow_mul_zpow (p : Nat) (e : Int) : (2 : ℚ) ^ p * 2 ^ e = 2 ^ ((p : Int) + e) := by
  rw [zpow_add₀ two_ne_zero, zpow_natCast]

theorem stepNumerator_eq (n : Nat) (e : Int) : (stepNumerator n e : ℚ) = n * 2 ^ (-e).toNat := by
  rw [stepNumerator, Nat.shiftLeft_eq]
  push_cast
  rfl

theorem stepDenominator_eq (d : Nat) (e : Int) : (stepDenominator d e : ℚ) = d * 2 ^ e.toNat := by
  rw [stepDenominator, Nat.shiftLeft_eq]
  push_cast
  rfl

theorem stepDenominator_pos {d : Nat} (hd : 0 < d) (e : Int) : 0 < stepDenominator d e := by
  rw [stepDenominator, Nat.shiftLeft_eq]
  positivity

/-- A quotient measured in steps. -/
theorem stepNumerator_div (n : Nat) {d : Nat} (hd : 0 < d) (e : Int) :
    (stepNumerator n e : ℚ) / stepDenominator d e = n / d * 2 ^ (-e) := by
  have hne : (d : ℚ) ≠ 0 := Nat.cast_ne_zero.2 hd.ne'
  rw [stepNumerator_eq, stepDenominator_eq, pow_toNat_mul two_ne_zero]
  field_simp

/-- What a quotient is compared with, measured in steps. -/
theorem le_measured_iff (n : Nat) {d : Nat} (hd : 0 < d) (e : Int) (x : ℚ) :
    x ≤ (stepNumerator n e : ℚ) / stepDenominator d e ↔ x * 2 ^ e ≤ n / d := by
  rw [stepNumerator_div n hd, zpow_neg, ← div_eq_mul_inv, le_div_iff₀ (by positivity)]

/-- The quotient that is taken of a finite magnitude. -/
theorem numerator_div_denominator (mantissa : Nat) (exponent : Int) :
    (BinaryFormat.numerator mantissa exponent : ℚ) / BinaryFormat.denominator exponent
      = steps mantissa exponent := by
  have hpow : (2 : ℚ) ^ exponent.toNat = 2 ^ exponent * 2 ^ (-exponent).toNat := by
    simpa using pow_toNat_mul two_ne_zero (-exponent)
  rw [BinaryFormat.numerator, BinaryFormat.denominator, Nat.shiftLeft_eq, Nat.shiftLeft_eq, steps]
  push_cast
  rw [hpow]
  field_simp

theorem denominator_pos (exponent : Int) : 0 < BinaryFormat.denominator exponent := by
  rw [BinaryFormat.denominator, Nat.shiftLeft_eq]
  positivity

/-! ## Rounding to an integer -/

/-- The nearest integer is at least the integer part, and half a unit too large at most. -/
theorem roundHalfEven_bounds (n : Nat) {d : Nat} (hd : 0 < d) :
    n / d ≤ roundHalfEven n d ∧ 2 * (d * roundHalfEven n d) ≤ 2 * n + d := by
  have hsplit : d * (n / d) + n % d = n := Nat.div_add_mod n d
  unfold roundHalfEven
  dsimp only
  split
  · exact ⟨Nat.le_refl _, by omega⟩
  · have hup : 2 * (d * (n / d + 1)) ≤ 2 * n + d := by
      rw [Nat.mul_add, Nat.mul_one]
      omega
    split
    · exact ⟨Nat.le_succ _, hup⟩
    · split
      · exact ⟨Nat.le_refl _, by omega⟩
      · exact ⟨Nat.le_succ _, hup⟩

theorem roundHalfEven_le (n : Nat) {d : Nat} (hd : 0 < d) :
    (roundHalfEven n d : ℚ) ≤ n / d + 1 / 2 := by
  have hpos : (0 : ℚ) < d := Nat.cast_pos.2 hd
  have hbound : (2 * (d * roundHalfEven n d) : ℚ) ≤ 2 * n + d := by
    exact_mod_cast (roundHalfEven_bounds n hd).2
  rw [div_add_div _ _ hpos.ne' two_ne_zero, le_div_iff₀ (by positivity)]
  linarith

/-- What is at least an integer is not rounded below it. -/
theorem le_roundHalfEven {k n d : Nat} (hd : 0 < d) (h : (k : ℚ) ≤ n / d) :
    k ≤ roundHalfEven n d := by
  have hpos : (0 : ℚ) < d := Nat.cast_pos.2 hd
  have hmul : k * d ≤ n := by
    rw [le_div_iff₀ hpos] at h
    exact_mod_cast h
  exact Nat.le_trans ((Nat.le_div_iff_mul_le hd).2 hmul) (roundHalfEven_bounds n hd).1

/-- A rounded quotient is half a step too large at most. -/
theorem steps_roundHalfEven_le (n : Nat) {d : Nat} (hd : 0 < d) (e : Int) :
    steps (roundHalfEven (stepNumerator n e) (stepDenominator d e)) e ≤ n / d + 2 ^ e / 2 := by
  have hnearest := roundHalfEven_le (stepNumerator n e) (stepDenominator_pos hd e)
  rw [stepNumerator_div n hd] at hnearest
  calc steps (roundHalfEven (stepNumerator n e) (stepDenominator d e)) e
      ≤ (n / d * 2 ^ (-e) + 1 / 2) * 2 ^ e := by rw [steps]; gcongr
    _ = n / d + 2 ^ e / 2 := by rw [zpow_neg]; field_simp

/-! ## Rounding to a format -/

namespace BinaryFormat

section

variable {f : BinaryFormat} {n d : Nat}

/-- A quotient lies between the powers of two that the bits of its parts give. -/
theorem log2_quotient_bounds (hn : 0 < n) (hd : 0 < d) :
    (2 : ℚ) ^ ((Nat.log2 n : Int) - Nat.log2 d - 1) ≤ n / d
      ∧ (n / d : ℚ) < 2 ^ ((Nat.log2 n : Int) - Nat.log2 d + 1) := by
  have hdpos : (0 : ℚ) < d := Nat.cast_pos.2 hd
  have hnlow : (2 : ℚ) ^ (Nat.log2 n : Int) ≤ n := by exact_mod_cast Nat.log2_self_le hn.ne'
  have hnhigh : (n : ℚ) < 2 ^ ((Nat.log2 n : Int) + 1) := by
    exact_mod_cast (Nat.lt_log2_self (n := n))
  have hdlow : (2 : ℚ) ^ (Nat.log2 d : Int) ≤ d := by exact_mod_cast Nat.log2_self_le hd.ne'
  have hdhigh : (d : ℚ) < 2 ^ ((Nat.log2 d : Int) + 1) := by
    exact_mod_cast (Nat.lt_log2_self (n := d))
  constructor
  · rw [le_div_iff₀ hdpos]
    calc (2 : ℚ) ^ ((Nat.log2 n : Int) - Nat.log2 d - 1) * d
        ≤ 2 ^ ((Nat.log2 n : Int) - Nat.log2 d - 1) * 2 ^ ((Nat.log2 d : Int) + 1) := by gcongr
      _ = 2 ^ (Nat.log2 n : Int) := by rw [← zpow_add₀ two_ne_zero]; congr 1; omega
      _ ≤ n := hnlow
  · rw [div_lt_iff₀ hdpos]
    calc (n : ℚ) < 2 ^ ((Nat.log2 n : Int) + 1) := hnhigh
      _ = 2 ^ ((Nat.log2 n : Int) - Nat.log2 d + 1) * 2 ^ (Nat.log2 d : Int) := by
        rw [← zpow_add₀ two_ne_zero]; congr 1; omega
      _ ≤ 2 ^ ((Nat.log2 n : Int) - Nat.log2 d + 1) * d := by gcongr

/-- The test for the exponent compares the quotient with the least full mantissa. -/
theorem fills_iff (hd : 0 < d) (p : Nat) (e : Int) :
    stepDenominator d e <<< p ≤ stepNumerator n e ↔ (2 : ℚ) ^ p * 2 ^ e ≤ n / d := by
  have hpos : (0 : ℚ) < stepDenominator d e := Nat.cast_pos.2 (stepDenominator_pos hd e)
  calc stepDenominator d e <<< p ≤ stepNumerator n e
      ↔ (2 : ℚ) ^ p * stepDenominator d e ≤ stepNumerator n e := by
        rw [Nat.shiftLeft_eq, mul_comm, ← Nat.cast_le (α := ℚ)]; push_cast; rfl
    _ ↔ (2 : ℚ) ^ p ≤ (stepNumerator n e : ℚ) / stepDenominator d e := (le_div_iff₀ hpos).symm
    _ ↔ (2 : ℚ) ^ p * 2 ^ e ≤ n / d := le_measured_iff n hd e _

/-- **The exponent of a quotient:** the quotient fills the mantissa at it, or it is the least
exponent that there is. -/
theorem exponentFor_bounds (hf : 0 < f.precision) (hn : 0 < n) (hd : 0 < d) :
    (n / d : ℚ) < 2 ^ f.precision * 2 ^ f.exponentFor n d
      ∧ ((2 : ℚ) ^ (f.precision - 1) * 2 ^ f.exponentFor n d ≤ n / d
          ∨ f.exponentFor n d = f.minExponent) := by
  obtain ⟨hlow, hhigh⟩ := log2_quotient_bounds hn hd
  have hfills (e : Int) (h : e ≤ (Nat.log2 n : Int) - Nat.log2 d - f.precision) :
      (2 : ℚ) ^ (f.precision - 1) * 2 ^ e ≤ n / d := by
    refine le_trans ?_ hlow
    rw [two_pow_mul_zpow]
    exact zpow_le_zpow_right₀ one_le_two (by omega)
  have hbelow (e : Int) (h : (Nat.log2 n : Int) - Nat.log2 d - f.precision + 1 ≤ e) :
      (n / d : ℚ) < 2 ^ f.precision * 2 ^ e := by
    refine lt_of_lt_of_le hhigh ?_
    rw [two_pow_mul_zpow]
    exact zpow_le_zpow_right₀ one_le_two (by omega)
  -- the exponent before it is raised to the least one
  suffices h : ∀ e : Int, (n / d : ℚ) < 2 ^ f.precision * 2 ^ e
      ∧ (2 : ℚ) ^ (f.precision - 1) * 2 ^ e ≤ n / d →
      (n / d : ℚ) < 2 ^ f.precision * 2 ^ max e f.minExponent
        ∧ ((2 : ℚ) ^ (f.precision - 1) * 2 ^ max e f.minExponent ≤ n / d
            ∨ max e f.minExponent = f.minExponent) by
    refine h _ ?_
    split
    · rename_i hfull
      exact ⟨hbelow _ le_rfl, (fills_iff hd _ _).1 hfull⟩
    · rename_i hnot
      refine ⟨?_, hfills _ (by omega)⟩
      rw [fills_iff hd, not_le] at hnot
      refine lt_of_lt_of_eq hnot ?_
      rw [two_pow_mul_zpow, two_pow_mul_zpow]
      congr 1
      omega
  rintro e ⟨hlt, hle⟩
  rcases le_total f.minExponent e with he | he
  · rw [max_eq_left he]
    exact ⟨hlt, .inl hle⟩
  · rw [max_eq_right he]
    refine ⟨lt_of_lt_of_le hlt ?_, .inr rfl⟩
    gcongr
    exact one_le_two

/-- The exponent of a quotient that is not too large. -/
theorem exponentFor_le (hf : 0 < f.precision) (hrange : f.minExponent ≤ f.maxExponent) (hn : 0 < n)
    (hd : 0 < d) (h : (n / d : ℚ) < 2 ^ f.precision * 2 ^ f.maxExponent) :
    f.exponentFor n d ≤ f.maxExponent := by
  obtain ⟨-, hfull | hleast⟩ := exponentFor_bounds hf hn hd
  · by_contra hover
    have hnext : (2 : ℚ) ^ f.precision * 2 ^ f.maxExponent
        ≤ 2 ^ (f.precision - 1) * 2 ^ f.exponentFor n d := by
      rw [two_pow_mul_zpow, two_pow_mul_zpow]
      exact zpow_le_zpow_right₀ one_le_two (by omega)
    linarith
  · omega

/-- The nearest number of steps at the exponent of a quotient needs one bit more than
there are at most. -/
theorem roundHalfEven_le_two_pow (hf : 0 < f.precision) (hn : 0 < n) (hd : 0 < d) :
    roundHalfEven (stepNumerator n (f.exponentFor n d)) (stepDenominator d (f.exponentFor n d))
      ≤ 2 ^ f.precision := by
  have hbelow := (exponentFor_bounds hf hn hd).1
  generalize f.exponentFor n d = e at hbelow ⊢
  have hmeasured : (stepNumerator n e : ℚ) / stepDenominator d e < 2 ^ f.precision := by
    rw [← not_le, le_measured_iff n hd, not_le]
    exact hbelow
  have hnearest := roundHalfEven_le (stepNumerator n e) (stepDenominator_pos hd e)
  have hhalf : (roundHalfEven (stepNumerator n e) (stepDenominator d e) : ℚ)
      < 2 ^ f.precision + 1 := by linarith
  exact Nat.lt_succ_iff.1 (by exact_mod_cast hhalf)

/-- **Rounding** takes the nearest number of steps at the exponent of the quotient. Where that needs
one bit more than there are, the exponent is raised. -/
theorem round_eq (hf : 0 < f.precision) (negative : Bool) (hn : 0 < n) (hd : 0 < d) :
    ∃ mantissa exponent,
      f.round negative n d = (if f.maxExponent < exponent then .infinite negative
        else .finite negative mantissa exponent)
      ∧ mantissa < 2 ^ f.precision
      ∧ steps mantissa exponent = steps (roundHalfEven (stepNumerator n (f.exponentFor n d))
          (stepDenominator d (f.exponentFor n d))) (f.exponentFor n d)
      ∧ (exponent = f.exponentFor n d ∨ exponent = f.exponentFor n d + 1
          ∧ steps mantissa exponent = 2 ^ f.precision * 2 ^ f.exponentFor n d) := by
  have hle := roundHalfEven_le_two_pow hf hn hd
  rw [round, if_neg hn.ne']
  dsimp only
  generalize roundHalfEven (stepNumerator n (f.exponentFor n d))
    (stepDenominator d (f.exponentFor n d)) = m at hle ⊢
  rw [Nat.one_shiftLeft, Nat.one_shiftLeft]
  split
  · rename_i hcarry
    have hsame : steps (2 ^ (f.precision - 1)) (f.exponentFor n d + 1)
        = 2 ^ f.precision * 2 ^ f.exponentFor n d := by
      rw [steps]
      push_cast
      rw [two_pow_mul_zpow, two_pow_mul_zpow]
      congr 1
      omega
    refine ⟨_, _, rfl, Nat.pow_lt_pow_right one_lt_two (by omega), ?_, .inr ⟨rfl, hsame⟩⟩
    rw [hsame, steps, hcarry]
    push_cast
    rfl
  · rename_i hroom
    exact ⟨_, _, rfl, lt_of_le_of_ne hle hroom, rfl, .inl rfl⟩

/-- A rounded quotient that is finite is a number of the format. -/
theorem round_fits (hf : 0 < f.precision) (hrange : f.minExponent ≤ f.maxExponent)
    {negative sign : Bool} (hd : 0 < d) {mantissa : Nat} {exponent : Int}
    (h : f.round negative n d = .finite sign mantissa exponent) :
    f.Fits mantissa exponent := by
  rcases Nat.eq_zero_or_pos n with rfl | hn
  · rw [round, if_pos rfl] at h
    cases h
    exact ⟨Nat.two_pow_pos _, hrange⟩
  · obtain ⟨m, e, hround, hm, -⟩ := round_eq hf negative hn hd
    rw [hround] at h
    split at h
    · cases h
    · rename_i hle
      cases h
      exact ⟨hm, not_lt.1 hle⟩

/-- **What is below the limit is rounded to a finite number:** the nearest number of steps at the
exponent of the quotient. -/
theorem round_of_lt (hf : 0 < f.precision) (hrange : f.minExponent ≤ f.maxExponent)
    (negative : Bool) (hn : 0 < n) (hd : 0 < d) (h : (n / d : ℚ) < f.limit) :
    ∃ mantissa exponent, f.round negative n d = .finite negative mantissa exponent
      ∧ f.Fits mantissa exponent
      ∧ steps mantissa exponent = steps (roundHalfEven (stepNumerator n (f.exponentFor n d))
          (stepDenominator d (f.exponentFor n d))) (f.exponentFor n d) := by
  have hpow : (0 : ℚ) < 2 ^ f.maxExponent := by positivity
  have hle : f.exponentFor n d ≤ f.maxExponent :=
    exponentFor_le hf hrange hn hd (lt_of_lt_of_le h (by rw [limit]; gcongr; linarith))
  obtain ⟨m, e, hround, hm, hsteps, hexponent⟩ := round_eq hf negative hn hd
  have hfinite : e ≤ f.maxExponent := by
    rcases hexponent with rfl | ⟨rfl, hcarry⟩
    · exact hle
    · refine Int.add_one_le_iff.2 (lt_of_le_of_ne hle fun heq => ?_)
      -- at the largest exponent the limit is half a step below the next power of two
      have hhalf := steps_roundHalfEven_le n hd (f.exponentFor n d)
      rw [← hsteps, hcarry, heq] at hhalf
      rw [limit] at h
      linarith
  exact ⟨m, e, by rw [hround, if_neg (not_lt.2 hfinite)], ⟨hm, hfinite⟩, hsteps⟩

/-- **A quotient in the normal range** is rounded with a relative error of half the last bit. -/
theorem round_of_normal (hf : 0 < f.precision) (hrange : f.minExponent ≤ f.maxExponent)
    (negative : Bool) (hd : 0 < d)
    (hnormal : 2 ^ (f.precision - 1) * 2 ^ f.minExponent ≤ (n / d : ℚ))
    (h : (n / d : ℚ) < f.limit) :
    f.Between (n / d / 2) (n / d * (1 + 1 / 2 ^ f.precision)) (f.round negative n d) := by
  have hn : 0 < n := by
    refine Nat.pos_of_ne_zero ?_
    rintro rfl
    rw [Nat.cast_zero, zero_div] at hnormal
    exact absurd hnormal (not_le.2 (by positivity))
  obtain ⟨mantissa, exponent, hround, hfits, hsteps⟩ := round_of_lt hf hrange negative hn hd h
  obtain ⟨hbelow, hfull⟩ := exponentFor_bounds hf hn hd
  have hfull : (2 : ℚ) ^ (f.precision - 1) * 2 ^ f.exponentFor n d ≤ n / d := by
    rcases hfull with hfull | hleast
    · exact hfull
    · rwa [hleast]
  have hpower : (2 : ℚ) ^ f.precision = 2 ^ (f.precision - 1) * 2 := by
    rw [← pow_succ, Nat.sub_add_cancel hf]
  refine ⟨negative, mantissa, exponent, hround, hfits, ?_, ?_⟩
  · have hmeasured : ((2 ^ (f.precision - 1) : Nat) : ℚ)
        ≤ (stepNumerator n (f.exponentFor n d) : ℚ) / stepDenominator d (f.exponentFor n d) := by
      rw [le_measured_iff n hd]
      exact_mod_cast hfull
    have hkept : ((2 ^ (f.precision - 1) : Nat) : ℚ)
        ≤ roundHalfEven (stepNumerator n (f.exponentFor n d))
            (stepDenominator d (f.exponentFor n d)) := by
      exact_mod_cast le_roundHalfEven (stepDenominator_pos hd _) hmeasured
    rw [hsteps, steps, div_le_iff₀ two_pos]
    calc (n / d : ℚ) ≤ 2 ^ (f.precision - 1) * 2 * 2 ^ f.exponentFor n d := by
          rw [← hpower]; exact hbelow.le
        _ = 2 ^ (f.precision - 1) * 2 ^ f.exponentFor n d * 2 := by ring
        _ ≤ _ := by gcongr; exact_mod_cast hkept
  · rw [hsteps]
    refine le_trans (steps_roundHalfEven_le n hd _) ?_
    have herror : (2 : ℚ) ^ f.exponentFor n d / 2 ≤ n / d * (1 / 2 ^ f.precision) := by
      rw [hpower, mul_one_div, le_div_iff₀ (by positivity)]
      linarith
    linarith

/-- **Any quotient below the limit** is rounded to a finite number that is not much larger. -/
theorem round_le (hf : 0 < f.precision) (hrange : f.minExponent ≤ f.maxExponent)
    (hsmall : f.minExponent ≤ 0) (negative : Bool) (hd : 0 < d) (h : (n / d : ℚ) < f.limit) :
    f.Between 0 (2 * (n / d) + 1) (f.round negative n d) := by
  rcases Nat.eq_zero_or_pos n with rfl | hn
  · refine ⟨negative, 0, f.minExponent, by rw [round, if_pos rfl], ⟨Nat.two_pow_pos _, hrange⟩,
      steps_nonneg _ _, ?_⟩
    rw [steps, Nat.cast_zero, zero_mul]
    positivity
  obtain ⟨mantissa, exponent, hround, hfits, hsteps⟩ := round_of_lt hf hrange negative hn hd h
  refine ⟨negative, mantissa, exponent, hround, hfits, steps_nonneg _ _, ?_⟩
  rw [hsteps]
  refine le_trans (steps_roundHalfEven_le n hd _) ?_
  have hquotient : (0 : ℚ) ≤ n / d := by positivity
  obtain ⟨-, hfull | hleast⟩ := exponentFor_bounds hf hn hd
  · have hone : (2 : ℚ) ^ f.exponentFor n d ≤ 2 ^ (f.precision - 1) * 2 ^ f.exponentFor n d :=
      le_mul_of_one_le_left (by positivity) (one_le_pow₀ one_le_two)
    linarith
  · have hone : (2 : ℚ) ^ f.exponentFor n d ≤ 1 := by
      rw [hleast]
      exact zpow_le_one_of_nonpos₀ one_le_two hsmall
    linarith

end

/-! ## Products and quotients -/

section

variable {f : BinaryFormat} {x y z : ℚ} {a b : Binary}

theorem Between.mono (h : f.Between x y b) {low high : ℚ} (hlow : low ≤ x) (hhigh : y ≤ high) :
    f.Between low high b := by
  obtain ⟨negative, mantissa, exponent, rfl, hfits, hx, hy⟩ := h
  exact ⟨negative, mantissa, exponent, rfl, hfits, hlow.trans hx, hy.trans hhigh⟩

theorem numerator_pos {mantissa : Nat} (h : mantissa ≠ 0) (exponent : Int) :
    0 < numerator mantissa exponent := by
  rw [numerator, Nat.shiftLeft_eq]
  positivity

/-- What is rounded in a product is the product. -/
theorem numerator_mul_numerator (m n : Nat) (e g : Int) :
    ((numerator m e * numerator n g : Nat) : ℚ) / (denominator e * denominator g : Nat)
      = steps m e * steps n g := by
  push_cast
  rw [mul_div_mul_comm, numerator_div_denominator, numerator_div_denominator]

/-- What is rounded in a quotient is the quotient. -/
theorem numerator_mul_denominator (m n : Nat) (e g : Int) :
    ((numerator m e * denominator g : Nat) : ℚ) / (denominator e * numerator n g : Nat)
      = steps m e / steps n g := by
  push_cast
  rw [← numerator_div_denominator, ← numerator_div_denominator, div_div_div_eq]

/-- A finite product is a number of the format, whatever the factors are. -/
theorem mul_fits (hf : 0 < f.precision) (hrange : f.minExponent ≤ f.maxExponent) {negative : Bool}
    {mantissa : Nat} {exponent : Int} (h : f.mul a b = .finite negative mantissa exponent) :
    f.Fits mantissa exponent := by
  cases a with
  | nan => cases h
  | infinite s =>
    cases b with
    | nan => cases h
    | infinite t => cases h
    | finite t n g =>
      rw [mul] at h
      split at h <;> cases h
  | finite s m e =>
    cases b with
    | nan => cases h
    | infinite t =>
      rw [mul] at h
      split at h <;> cases h
    | finite t n g =>
      exact round_fits hf hrange (Nat.mul_pos (denominator_pos e) (denominator_pos g)) h

/-- A finite quotient is a number of the format as well. -/
theorem div_fits (hf : 0 < f.precision) (hrange : f.minExponent ≤ f.maxExponent) {negative : Bool}
    {mantissa : Nat} {exponent : Int} (h : f.div a b = .finite negative mantissa exponent) :
    f.Fits mantissa exponent := by
  cases a with
  | nan => cases h
  | infinite s => cases b <;> cases h
  | finite s m e =>
    cases b with
    | nan => cases h
    | infinite t =>
      cases h
      exact ⟨Nat.two_pow_pos _, hrange⟩
    | finite t n g =>
      rw [div] at h
      split at h
      · split at h <;> cases h
      · rename_i hn
        exact round_fits hf hrange (Nat.mul_pos (denominator_pos e) (numerator_pos hn g)) h

/-- A product below the limit is finite. -/
theorem mul_between (hf : 0 < f.precision) (hrange : f.minExponent ≤ f.maxExponent)
    (hsmall : f.minExponent ≤ 0) (ha : f.Between 0 x a) (hb : f.Between 0 y b)
    (h : x * y < f.limit) :
    f.Between 0 (2 * (x * y) + 1) (f.mul a b) := by
  obtain ⟨s, m, e, rfl, -, -, hx⟩ := ha
  obtain ⟨t, n, g, rfl, -, -, hy⟩ := hb
  have hquotient := numerator_mul_numerator m n e g
  have hle : steps m e * steps n g ≤ x * y :=
    mul_le_mul hx hy (steps_nonneg n g) ((steps_nonneg m e).trans hx)
  have hround := round_le hf hrange hsmall (s != t) (n := numerator m e * numerator n g)
    (Nat.mul_pos (denominator_pos e) (denominator_pos g)) (by rw [hquotient]; exact hle.trans_lt h)
  exact hround.mono le_rfl (by rw [hquotient]; linarith)

/-- A quotient below the limit is finite, unless it is a quotient by zero. -/
theorem div_between (hf : 0 < f.precision) (hrange : f.minExponent ≤ f.maxExponent)
    (hsmall : f.minExponent ≤ 0) (ha : f.Between 0 x a) (hb : f.Between y z b) (hy : 0 < y)
    (h : x / y < f.limit) :
    f.Between 0 (2 * (x / y) + 1) (f.div a b) := by
  obtain ⟨s, m, e, rfl, -, -, hx⟩ := ha
  obtain ⟨t, n, g, rfl, -, hlow, -⟩ := hb
  have hpos : 0 < steps n g := hy.trans_le hlow
  have hn : n ≠ 0 := by
    rintro rfl
    rw [steps, Nat.cast_zero, zero_mul] at hpos
    exact lt_irrefl 0 hpos
  have hquotient := numerator_mul_denominator m n e g
  have hle : steps m e / steps n g ≤ x / y := div_le_div₀ ((steps_nonneg m e).trans hx) hx hy hlow
  have hround := round_le hf hrange hsmall (s != t) (n := numerator m e * denominator g)
    (Nat.mul_pos (denominator_pos e) (numerator_pos hn g)) (by rw [hquotient]; exact hle.trans_lt h)
  rw [div, if_neg hn]
  exact hround.mono le_rfl (by rw [hquotient]; linarith)

end

end BinaryFormat
end Gatehouse.Number
