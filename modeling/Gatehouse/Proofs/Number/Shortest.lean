/-
How large the shortest decimal is.

The shortest decimal of a number rounds to it, so it is above it by half a step at most
(`value_shortest_le`). It is zero only as the decimal that stands in where none is found
(`shortest_exponent_of_eq_zero`).
-/
import Gatehouse.Number.Shortest
import Gatehouse.Proofs.Number.Rounding

set_option autoImplicit false

namespace Gatehouse.Number

/-- What a decimal amounts to. -/
def Decimal.value (d : Decimal) : ℚ := d.digits * 10 ^ d.exponent

/-! ## The interval of a number -/

theorem interval_high_div_scale (f : BinaryFormat) (mantissa : Nat) (exponent : Int) :
    ((f.interval mantissa exponent).high : ℚ) / (f.interval mantissa exponent).scale
      = (mantissa + 1 / 2) * 2 ^ exponent := by
  have hshift : (2 : ℚ) ^ (exponent - 2).toNat = 2 ^ (exponent - 2) * 2 ^ (2 - exponent).toNat := by
    simpa using pow_toNat_mul two_ne_zero (2 - exponent)
  have hquarter : (2 : ℚ) ^ (exponent - 2) = 2 ^ exponent / 4 := by
    rw [zpow_sub₀ two_ne_zero]
    norm_num
  simp only [BinaryFormat.interval, Nat.one_shiftLeft]
  push_cast
  rw [hshift, hquarter]
  field_simp
  ring

theorem interval_scale_pos (f : BinaryFormat) (mantissa : Nat) (exponent : Int) :
    0 < (f.interval mantissa exponent).scale := by
  simp only [BinaryFormat.interval, Nat.one_shiftLeft]
  exact Nat.two_pow_pos _

theorem interval_low_pos (f : BinaryFormat) {mantissa : Nat} (h : mantissa ≠ 0) (exponent : Int) :
    0 < (f.interval mantissa exponent).low := by
  simp only [BinaryFormat.interval, Nat.one_shiftLeft]
  refine Nat.mul_pos ?_ (Nat.two_pow_pos _)
  split <;> omega

namespace RoundingInterval

variable {i : RoundingInterval} {q : Nat} {power : Int}

/-- What lies in an interval is not above its upper end. -/
theorem contains_le (hscale : 0 < i.scale) (h : i.contains q power = true) :
    (q * 10 ^ power : ℚ) ≤ i.high / i.scale := by
  have hle : q * 10 ^ power.toNat * i.scale ≤ i.high * 10 ^ (-power).toNat := by
    rw [contains] at h
    split at h
    · exact of_decide_eq_true (Bool.and_eq_true_iff.1 h).2
    · exact (of_decide_eq_true (Bool.and_eq_true_iff.1 h).2).le
  have hcast : (q * 10 ^ power.toNat * i.scale : ℚ) ≤ i.high * 10 ^ (-power).toNat := by
    exact_mod_cast hle
  have hpower : (10 : ℚ) ^ power.toNat = 10 ^ power * 10 ^ (-power).toNat := by
    simpa using pow_toNat_mul (by norm_num : (10 : ℚ) ≠ 0) (-power)
  rw [le_div_iff₀ (Nat.cast_pos.2 hscale)]
  rw [hpower] at hcast
  refine le_of_mul_le_mul_right ?_ (by positivity : (0 : ℚ) < 10 ^ (-power).toNat)
  calc (q * 10 ^ power * i.scale * 10 ^ (-power).toNat : ℚ)
      = q * (10 ^ power * 10 ^ (-power).toNat) * i.scale := by ring
    _ ≤ _ := hcast

theorem contains_pos (hlow : 0 < i.low) (h : i.contains q power = true) : q ≠ 0 := by
  rintro rfl
  have hunit : 0 < i.low * Nat.pow 10 (-power).toNat := Nat.mul_pos hlow (Nat.pow_pos (by decide))
  simp only [contains, Nat.zero_mul] at h
  split at h
  · exact absurd (of_decide_eq_true (Bool.and_eq_true_iff.1 h).1) (not_le.2 hunit)
  · exact absurd (of_decide_eq_true (Bool.and_eq_true_iff.1 h).1) (Nat.not_lt_zero _)

/-- A neighbour that is picked lies in the interval. -/
theorem contains_of_pick? (h : i.pick? power = some q) : i.contains q power = true := by
  unfold pick? at h
  dsimp only at h
  split at h
  · rename_i hhere _
    exact Option.some.inj h ▸ hhere
  · rename_i _ hnext
    exact Option.some.inj h ▸ hnext
  · cases h
  · rename_i hhere hnext
    split at h
    · exact Option.some.inj h ▸ hhere
    · split at h
      · exact Option.some.inj h ▸ hnext
      · split at h
        · exact Option.some.inj h ▸ hhere
        · exact Option.some.inj h ▸ hnext

end RoundingInterval

/-! ## Trailing zeros -/

/-- Taking off zeros does not change what a decimal amounts to. -/
theorem value_trimZeros (fuel digits : Nat) (exponent : Int) :
    (trimZeros fuel digits exponent).value = digits * 10 ^ exponent := by
  induction fuel generalizing digits exponent with
  | zero => rfl
  | succ fuel ih =>
    rw [trimZeros]
    split
    · rename_i hzero
      have hdigits : (digits : ℚ) = (digits / 10 : Nat) * 10 := by
        exact_mod_cast (Nat.div_mul_cancel (Nat.dvd_of_mod_eq_zero hzero.2)).symm
      rw [ih, zpow_add_one₀ (by norm_num), hdigits]
      ring
    · rfl

theorem trimZeros_digits_ne_zero (fuel : Nat) {digits : Nat} (h : digits ≠ 0) (exponent : Int) :
    (trimZeros fuel digits exponent).digits ≠ 0 := by
  induction fuel generalizing digits exponent with
  | zero => exact h
  | succ fuel ih =>
    rw [trimZeros]
    split
    · exact ih (by omega) _
    · exact h

/-! ## The shortest decimal -/

/-- The shortest decimal is found in the interval, or none is found. -/
theorem shortest_cases (f : BinaryFormat) (mantissa : Nat) (exponent : Int) :
    f.shortest mantissa exponent = ⟨0, 0⟩
      ∨ ∃ q power, (f.interval mantissa exponent).contains q power = true
        ∧ f.shortest mantissa exponent = trimZeros 20 q power := by
  unfold BinaryFormat.shortest
  dsimp only
  cases hfound : (List.range 17).findSome? _ with
  | none => exact .inl rfl
  | some d =>
    right
    obtain ⟨extra, -, hpick⟩ := List.exists_of_findSome?_eq_some hfound
    obtain ⟨q, hq, rfl⟩ := Option.map_eq_some_iff.1 hpick
    exact ⟨q, _, RoundingInterval.contains_of_pick? hq, rfl⟩

/-- **The shortest decimal is above its number by half a step at most.** -/
theorem value_shortest_le (f : BinaryFormat) (mantissa : Nat) (exponent : Int) :
    (f.shortest mantissa exponent).value ≤ (mantissa + 1 / 2) * 2 ^ exponent := by
  rcases shortest_cases f mantissa exponent with hnone | ⟨q, power, hcontains, hfound⟩
  · rw [hnone, Decimal.value, Nat.cast_zero, zero_mul]
    positivity
  · rw [hfound, value_trimZeros, ← interval_high_div_scale f]
    exact RoundingInterval.contains_le (interval_scale_pos f _ _) hcontains

theorem shortest_exponent_of_eq_zero (f : BinaryFormat) {mantissa : Nat} (h : mantissa ≠ 0)
    (exponent : Int) (hzero : (f.shortest mantissa exponent).digits = 0) :
    (f.shortest mantissa exponent).exponent = 0 := by
  rcases shortest_cases f mantissa exponent with hnone | ⟨q, power, hcontains, hfound⟩
  · rw [hnone]
  · rw [hfound] at hzero
    exact absurd hzero
      (trimZeros_digits_ne_zero 20
        (RoundingInterval.contains_pos (interval_low_pos f h _) hcontains) power)

end Gatehouse.Number
