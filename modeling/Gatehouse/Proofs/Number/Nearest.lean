/-
What rounding to the nearest does to a magnitude.

A magnitude in the normal range keeps its value up to half the last bit, on either side
(`round_near`), and a number of the format keeps its value (`round_exact`). Which quotients come out
at a given number of steps or above depends on the tie: an even number is reached from exactly half
a step below it on (`even_le_roundHalfEven_iff`), so nothing is left open there. Magnitudes have no
minus sign, and neither have their products and quotients, so signs are left out of account by
`Binary.IsMagnitude`.
-/
import Gatehouse.Proofs.Number.Order
import Gatehouse.Proofs.Number.Rounding

set_option autoImplicit false

namespace Gatehouse.Number

/-- **A datum is a magnitude:** a number without a minus sign. -/
def Binary.IsMagnitude (b : Binary) (x : ℚ) : Prop :=
  ∃ mantissa exponent, b = .finite false mantissa exponent ∧ steps mantissa exponent = x

theorem Binary.IsMagnitude.toRat? {b : Binary} {x : ℚ} (h : b.IsMagnitude x) :
    b.toRat? = some x := by
  obtain ⟨mantissa, exponent, rfl, rfl⟩ := h
  rfl

/-! ## Rounding to an integer -/

/-- The nearest integer is half a unit too small at most. -/
theorem le_two_mul_roundHalfEven (n : Nat) {d : Nat} (hd : 0 < d) :
    2 * n ≤ 2 * (d * roundHalfEven n d) + d := by
  have hsplit : d * (n / d) + n % d = n := Nat.div_add_mod n d
  have hrest : n % d < d := Nat.mod_lt n hd
  have hup : d * (n / d + 1) = d * (n / d) + d := Nat.mul_succ d (n / d)
  unfold roundHalfEven
  dsimp only
  split
  · omega
  · split
    · omega
    · split <;> omega

theorem sub_half_le_roundHalfEven (n : Nat) {d : Nat} (hd : 0 < d) :
    (n / d - 1 / 2 : ℚ) ≤ roundHalfEven n d := by
  have hpos : (0 : ℚ) < d := Nat.cast_pos.2 hd
  have hbound : (2 * n : ℚ) ≤ 2 * (d * roundHalfEven n d) + d := by
    exact_mod_cast le_two_mul_roundHalfEven n hd
  rw [sub_le_iff_le_add, div_le_iff₀ hpos]
  linarith

/-- An integer is kept. -/
theorem roundHalfEven_mul (k : Nat) {d : Nat} (hd : 0 < d) : roundHalfEven (k * d) d = k := by
  unfold roundHalfEven
  dsimp only
  rw [Nat.mul_mod_left, Nat.mul_div_cancel k hd, if_pos hd]

/-- **An even integer is reached from half a unit below it on,** the tie included. -/
theorem even_le_roundHalfEven_iff {k n d : Nat} (hd : 0 < d) (heven : k % 2 = 0) :
    k ≤ roundHalfEven n d ↔ (k - 1 / 2 : ℚ) ≤ n / d := by
  have hpos : (0 : ℚ) < d := Nat.cast_pos.2 hd
  have hcast : (k - 1 / 2 : ℚ) ≤ n / d ↔ 2 * (d * k) ≤ 2 * n + d := by
    rw [le_div_iff₀ hpos, ← Nat.cast_le (α := ℚ)]
    push_cast
    constructor <;> intro h <;> linarith
  rw [hcast]
  have hsplit : d * (n / d) + n % d = n := Nat.div_add_mod n d
  have hrest : n % d < d := Nat.mod_lt n hd
  -- the integer is not above the integer part, the next one, or above both
  have hplace : (k ≤ n / d ∧ d * k ≤ d * (n / d)) ∨ (k = n / d + 1 ∧ d * k = d * (n / d) + d)
      ∨ (n / d + 2 ≤ k ∧ d * (n / d) + 2 * d ≤ d * k) := by
    rcases Nat.lt_trichotomy k (n / d + 1) with hlt | rfl | hgt
    · exact .inl ⟨Nat.le_of_lt_succ hlt, Nat.mul_le_mul_left d (Nat.le_of_lt_succ hlt)⟩
    · exact .inr (.inl ⟨rfl, Nat.mul_succ d (n / d)⟩)
    · refine .inr (.inr ⟨hgt, ?_⟩)
      calc d * (n / d) + 2 * d = d * (n / d + 2) := by ring
        _ ≤ d * k := Nat.mul_le_mul_left d hgt
  unfold roundHalfEven
  dsimp only
  split
  · omega
  · split
    · omega
    · split <;> omega

/-! ## Rounding to a format -/

namespace BinaryFormat

section

variable {f : BinaryFormat} {n d : Nat}

/-- A quotient that is rounded to a finite number is measured in steps at its exponent. -/
theorem round_isMagnitude (hf : 0 < f.precision) (hrange : f.minExponent ≤ f.maxExponent)
    (hn : 0 < n) (hd : 0 < d) (h : (n / d : ℚ) < f.limit) :
    (f.round false n d).IsMagnitude
      (steps
        (roundHalfEven (stepNumerator n (f.exponentFor n d))
          (stepDenominator d (f.exponentFor n d)))
        (f.exponentFor n d)) := by
  obtain ⟨mantissa, exponent, hround, -, hsteps⟩ := round_of_lt hf hrange false hn hd h
  exact ⟨mantissa, exponent, hround, hsteps⟩

/-- A rounded quotient is half a step too small at most. -/
theorem le_steps_roundHalfEven (n : Nat) {d : Nat} (hd : 0 < d) (e : Int) :
    (n / d : ℚ) - 2 ^ e / 2
      ≤ steps (roundHalfEven (stepNumerator n e) (stepDenominator d e)) e := by
  have hnearest := sub_half_le_roundHalfEven (stepNumerator n e) (stepDenominator_pos hd e)
  rw [stepNumerator_div n hd] at hnearest
  calc (n / d : ℚ) - 2 ^ e / 2 = (n / d * 2 ^ (-e) - 1 / 2) * 2 ^ e := by rw [zpow_neg]; field_simp
    _ ≤ steps (roundHalfEven (stepNumerator n e) (stepDenominator d e)) e := by rw [steps]; gcongr

/-- **A quotient in the normal range** is rounded with a relative error of half the last
bit, up or down. -/
theorem round_near (hf : 0 < f.precision) (hrange : f.minExponent ≤ f.maxExponent) (hd : 0 < d)
    (hnormal : 2 ^ (f.precision - 1) * 2 ^ f.minExponent ≤ (n / d : ℚ))
    (h : (n / d : ℚ) < f.limit) :
    ∃ x, (f.round false n d).IsMagnitude x ∧ |x - n / d| ≤ n / d / 2 ^ f.precision := by
  have hn : 0 < n := by
    refine Nat.pos_of_ne_zero ?_
    rintro rfl
    rw [Nat.cast_zero, zero_div] at hnormal
    exact absurd hnormal (not_le.2 (by positivity))
  refine ⟨_, round_isMagnitude hf hrange hn hd h, ?_⟩
  have hfull : (2 : ℚ) ^ (f.precision - 1) * 2 ^ f.exponentFor n d ≤ n / d := by
    rcases (exponentFor_bounds hf hn hd).2 with hfull | hleast
    · exact hfull
    · rwa [hleast]
  have hpower : (2 : ℚ) ^ f.precision = 2 ^ (f.precision - 1) * 2 := by
    rw [← pow_succ, Nat.sub_add_cancel hf]
  have herror : (2 : ℚ) ^ f.exponentFor n d / 2 ≤ n / d / 2 ^ f.precision := by
    rw [hpower, le_div_iff₀ (by positivity)]
    linarith
  have hbelow := le_steps_roundHalfEven n hd (f.exponentFor n d)
  have habove := steps_roundHalfEven_le n hd (f.exponentFor n d)
  rw [abs_le]
  constructor <;> linarith

/-- The exponent at which a quotient fills the mantissa is the exponent that it is rounded at. -/
theorem exponentFor_eq (hf : 0 < f.precision) (hn : 0 < n) (hd : 0 < d) {e : Int}
    (he : f.minExponent ≤ e) (hlow : (2 : ℚ) ^ (f.precision - 1) * 2 ^ e ≤ n / d)
    (hhigh : (n / d : ℚ) < 2 ^ f.precision * 2 ^ e) :
    f.exponentFor n d = e := by
  obtain ⟨hbelow, hfull⟩ := exponentFor_bounds hf hn hd
  have hlarge : ((f.precision - 1 : Nat) : Int) + e < f.precision + f.exponentFor n d := by
    rw [← zpow_lt_zpow_iff_right₀ (one_lt_two (α := ℚ)), ← two_pow_mul_zpow, ← two_pow_mul_zpow]
    exact hlow.trans_lt hbelow
  rcases hfull with hfull | hleast
  · have hsmall : ((f.precision - 1 : Nat) : Int) + f.exponentFor n d < f.precision + e := by
      rw [← zpow_lt_zpow_iff_right₀ (one_lt_two (α := ℚ)), ← two_pow_mul_zpow, ← two_pow_mul_zpow]
      exact hfull.trans_lt hhigh
    omega
  · omega

/-- A number of the format is below the bound of what is rounded to a finite number. -/
theorem steps_lt_limit {mantissa : Nat} {exponent : Int} (h : f.Fits mantissa exponent) :
    steps mantissa exponent < f.limit := by
  have hmantissa : (mantissa : ℚ) + 1 ≤ 2 ^ f.precision := by exact_mod_cast h.1
  calc steps mantissa exponent ≤ mantissa * 2 ^ f.maxExponent := by
        rw [steps]
        gcongr
        · exact one_le_two
        · exact h.2
    _ < (2 ^ f.precision - 1 / 2) * 2 ^ f.maxExponent := by
        gcongr
        linarith

/-- **A number of the format** keeps its value: at the exponent that it is rounded at it is a whole
number of steps. -/
theorem round_exact (hf : 0 < f.precision) (hrange : f.minExponent ≤ f.maxExponent) (hd : 0 < d)
    {mantissa : Nat} {exponent : Int} (hfits : f.Fits mantissa exponent)
    (hleast : f.minExponent ≤ exponent) (heq : (n / d : ℚ) = steps mantissa exponent) :
    (f.round false n d).IsMagnitude (n / d) := by
  rcases Nat.eq_zero_or_pos n with rfl | hn
  · exact ⟨0, f.minExponent, by rw [round, if_pos rfl],
      by rw [steps, Nat.cast_zero, zero_mul, zero_div]⟩
  have hle : f.exponentFor n d ≤ exponent := by
    rcases (exponentFor_bounds hf hn hd).2 with hfull | hmin
    · have hlt : (2 : ℚ) ^ (f.precision - 1) * 2 ^ f.exponentFor n d
          < 2 ^ f.precision * 2 ^ exponent := by
        refine hfull.trans_lt ?_
        rw [heq, steps]
        gcongr
        exact_mod_cast hfits.1
      rw [two_pow_mul_zpow, two_pow_mul_zpow, zpow_lt_zpow_iff_right₀ one_lt_two] at hlt
      omega
    · omega
  have hround := round_isMagnitude hf hrange hn hd (heq.trans_lt (steps_lt_limit hfits))
  generalize f.exponentFor n d = e at hle hround
  -- so many steps of the smaller size
  have hsteps : steps mantissa exponent = steps (mantissa * 2 ^ (exponent - e).toNat) e := by
    rw [steps, steps, Nat.cast_mul, mul_assoc]
    push_cast
    rw [two_pow_mul_zpow]
    congr 2
    omega
  have hwhole : stepNumerator n e = mantissa * 2 ^ (exponent - e).toNat * stepDenominator d e := by
    have hpos : (stepDenominator d e : ℚ) ≠ 0 := Nat.cast_ne_zero.2 (stepDenominator_pos hd e).ne'
    have hquotient := stepNumerator_div n hd e
    rw [heq, hsteps, steps, zpow_neg, mul_inv_cancel_right₀ (by positivity),
      div_eq_iff hpos] at hquotient
    exact_mod_cast hquotient
  rw [hwhole, roundHalfEven_mul _ (stepDenominator_pos hd e), ← hsteps, ← heq] at hround
  exact hround

end

/-! ## Products and quotients -/

section

variable {f : BinaryFormat} {a b : Binary} {x y : ℚ}

/-- What is rounded in a product of magnitudes. -/
theorem mul_eq_round (ha : a.IsMagnitude x) (hb : b.IsMagnitude y) :
    ∃ n d, f.mul a b = f.round false n d ∧ 0 < d ∧ (n / d : ℚ) = x * y := by
  obtain ⟨m, e, rfl, rfl⟩ := ha
  obtain ⟨n, g, rfl, rfl⟩ := hb
  exact ⟨_, _, rfl, Nat.mul_pos (denominator_pos e) (denominator_pos g),
    numerator_mul_numerator m n e g⟩

/-- What is rounded in a quotient of magnitudes. -/
theorem div_eq_round (ha : a.IsMagnitude x) (hb : b.IsMagnitude y) (hy : 0 < y) :
    ∃ n d, f.div a b = f.round false n d ∧ 0 < d ∧ (n / d : ℚ) = x / y := by
  obtain ⟨m, e, rfl, rfl⟩ := ha
  obtain ⟨n, g, rfl, rfl⟩ := hb
  have hn : n ≠ 0 := by
    rintro rfl
    rw [steps, Nat.cast_zero, zero_mul] at hy
    exact lt_irrefl 0 hy
  refine ⟨_, _, ?_, Nat.mul_pos (denominator_pos e) (numerator_pos hn g),
    numerator_mul_denominator m n e g⟩
  rw [div, if_neg hn]
  rfl

end

end BinaryFormat
end Gatehouse.Number
