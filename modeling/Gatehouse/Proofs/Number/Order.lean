/-
The order of floating-point data.

Data are compared without rounding, as numbers of steps of one size. For finite data this is the
order of the rational numbers that they are; what is not a number compares with nothing, and an
infinity is on one side of everything finite. So a datum that lies between two finite ones is itself
a number between them (`Binary.between_iff`).
-/
import Gatehouse.Number.Binary
import Mathlib.Algebra.Order.Field.Basic
import Mathlib.Algebra.Order.Field.Rat
import Mathlib.Algebra.Order.GroupWithZero.Basic
import Mathlib.Tactic.NormNum
import Mathlib.Tactic.Positivity
import Mathlib.Tactic.Ring

set_option autoImplicit false

namespace Gatehouse.Number

/-- The number that a sign, a mantissa and an exponent make. -/
def magnitude (negative : Bool) (mantissa : Nat) (exponent : Int) : ℚ :=
  (if negative then -(mantissa : ℚ) else mantissa) * 2 ^ exponent

/-- **The number that a datum is,** if it is one. -/
def Binary.toRat? : Binary → Option ℚ
  | .finite negative mantissa exponent => some (magnitude negative mantissa exponent)
  | _ => none

/-- A finite datum is its number of steps times their size. -/
theorem magnitude_eq (negative : Bool) (mantissa : Nat) {exponent base : Int}
    (h : base ≤ exponent) :
    magnitude negative mantissa exponent
      = signedSteps negative mantissa exponent base * 2 ^ base := by
  have hscale : (2 : ℚ) ^ exponent = 2 ^ (exponent - base).toNat * 2 ^ base := by
    rw [← zpow_natCast, Int.toNat_of_nonneg (Int.sub_nonneg.2 h), ← zpow_add₀ two_ne_zero,
      sub_add_cancel]
  have hsteps : ((mantissa <<< (exponent - base).toNat : Nat) : ℚ)
      = mantissa * 2 ^ (exponent - base).toNat := by
    rw [Nat.shiftLeft_eq, Nat.cast_mul, Nat.cast_pow, Nat.cast_ofNat]
  rw [magnitude, signedSteps, hscale, ← mul_assoc]
  cases negative with
  | true =>
    simp only [if_true, Int.cast_neg, Int.cast_natCast, hsteps]
    ring
  | false => simp only [Bool.false_eq_true, if_false, Int.cast_natCast, hsteps]

namespace Binary

variable {a b t : Binary} {p q : ℚ}

/-- **Finite data compare as the numbers that they are.** -/
theorem le_iff (ha : a.toRat? = some p) (hb : b.toRat? = some q) : a.le b = true ↔ p ≤ q := by
  cases a with
  | finite s m e =>
    cases b with
    | finite s' n g =>
      cases ha
      cases hb
      have hpos : (0 : ℚ) < 2 ^ min e g := zpow_pos two_pos _
      rw [magnitude_eq s m (min_le_left e g), magnitude_eq s' n (min_le_right e g),
        mul_le_mul_iff_left₀ hpos, Int.cast_le]
      exact decide_eq_true_iff
    | _ => cases hb
  | _ => cases ha

theorem lt_iff (ha : a.toRat? = some p) (hb : b.toRat? = some q) : a.lt b = true ↔ p < q := by
  rw [lt, Bool.and_eq_true, Bool.not_eq_true', ← Bool.not_eq_true, le_iff ha hb, le_iff hb ha,
    lt_iff_le_not_ge]

/-- **What lies between two numbers is a number between them.** -/
theorem between_iff (ha : a.toRat? = some p) (hb : b.toRat? = some q) :
    (a.lt t && t.le b) = true ↔ ∃ r, t.toRat? = some r ∧ p < r ∧ r ≤ q := by
  cases ht : t.toRat? with
  | some r => simp [lt_iff ha ht, le_iff ht hb]
  | none =>
    refine iff_of_false (fun h => ?_) (by simp)
    obtain ⟨hlt, hle⟩ := Bool.and_eq_true_iff.1 h
    cases a with
    | finite s m e =>
      cases b with
      | finite s' n g =>
        cases t with
        | nan => cases hle
        | infinite negative =>
          cases negative with
          | true => cases hlt
          | false => cases hle
        | finite => cases ht
      | _ => cases hb
    | _ => cases ha

end Binary

theorem toRat?_ofNat_zero : (BinaryFormat.single.ofNat 0).toRat? = some 0 := by
  simp [BinaryFormat.ofNat, BinaryFormat.round, Binary.toRat?, magnitude]

theorem toRat?_ofNat_hundred : (BinaryFormat.single.ofNat 100).toRat? = some 100 := by
  have hdatum : BinaryFormat.single.ofNat 100 = .finite false 13107200 (-17) := by decide
  rw [hdatum, Binary.toRat?, magnitude]
  norm_num

end Gatehouse.Number
