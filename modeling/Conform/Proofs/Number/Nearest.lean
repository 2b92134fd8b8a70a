import Mathlib.Algebra.Order.Ring.Abs
import Mathlib.Data.Rat.Cast.Order
import Mathlib.Tactic.Linarith
import Mathlib.Tactic.NormNum
import Mathlib.Tactic.Push
import Conform.Number.Basic

/-! Rounding and remainders. The number that rounding chooses is as near as any whole number, whichever
way ties go, so being near a whole number and being near the chosen one are the same. Nothing is left
of a rational exactly where it is a whole multiple. -/
namespace Conform.Number

/-- Rounding moves a rational by a half at most. -/
theorem abs_sub_nearest_le_half (r : ℚ) : |r - nearest r| ≤ 1 / 2 := by
  have low := Rat.floor_le r
  have high := Rat.lt_floor_add_one r
  push_cast at high
  unfold nearest
  dsimp only
  rw [abs_le]
  split_ifs <;> push_cast <;> constructor <;> linarith

/-- No whole number is nearer than the one that rounding chooses: two of them are at least one
apart, and the chosen one is at most a half away. -/
theorem abs_sub_nearest_le (r : ℚ) (k : ℤ) : |r - nearest r| ≤ |r - k| := by
  by_cases same : nearest r = k
  · rw [same]
  have apart : (1 : ℚ) ≤ |(nearest r : ℚ) - k| := by
    have := Int.one_le_abs (sub_ne_zero.mpr same)
    exact_mod_cast this
  have half := abs_sub_nearest_le_half r
  have triangle := abs_sub_le (nearest r : ℚ) r k
  rw [abs_sub_comm (nearest r : ℚ) r] at triangle
  linarith

theorem offWhole_eq (r : ℚ) : offWhole r = |r - nearest r| := by
  unfold offWhole Rat.abs
  split
  · next h => rw [abs_of_nonneg h]
  · next h => rw [abs_of_neg (not_le.mp h)]

/-- To be near the nearest whole number is to be near some whole number. -/
theorem offWhole_le_iff {r t : ℚ} : offWhole r ≤ t ↔ ∃ k : ℤ, |r - k| ≤ t := by
  rw [offWhole_eq]
  constructor
  · intro h
    exact ⟨nearest r, h⟩
  · rintro ⟨k, h⟩
    exact (abs_sub_nearest_le r k).trans h

/-- Whole multiples leave nothing, and only they. -/
theorem remainder_eq_zero_iff {a b : ℚ} (nonzero : b ≠ 0) :
    remainder a b = 0 ↔ ∃ k : ℤ, a = k * b := by
  unfold remainder
  rw [sub_eq_zero]
  constructor
  · intro h
    exact ⟨(a / b).floor, h.trans (mul_comm _ _)⟩
  · rintro ⟨k, rfl⟩
    rw [mul_div_cancel_right₀ _ nonzero, Rat.floor_intCast, mul_comm]

/-- A quotient of whole numbers cannot be nearer to a whole number than one part of the divisor,
unless it is one. -/
theorem exists_near_iff_dvd {n m : ℤ} {t : ℚ} (positive : 0 < m) (nonneg : 0 ≤ t)
    (small : t < 1 / m) : (∃ k : ℤ, |(n : ℚ) / m - k| ≤ t) ↔ m ∣ n := by
  have pos : (0 : ℚ) < m := by exact_mod_cast positive
  constructor
  · rintro ⟨k, near⟩
    have scaled : |(n : ℚ) / m - k| * m = |((n - k * m : ℤ) : ℚ)| := by
      calc |(n : ℚ) / m - k| * m = |((n : ℚ) / m - k) * m| := by rw [abs_mul, abs_of_pos pos]
        _ = |(n : ℚ) - k * m| := by rw [sub_mul, div_mul_cancel₀ _ pos.ne']
        _ = |((n - k * m : ℤ) : ℚ)| := by push_cast; rfl
    have below : |((n - k * m : ℤ) : ℚ)| < 1 := by
      rw [← scaled, ← lt_div_iff₀ pos]
      exact near.trans_lt small
    have none : n - k * m = 0 := by
      apply Int.abs_lt_one_iff.mp
      exact_mod_cast below
    exact ⟨k, by linarith⟩
  · rintro ⟨k, rfl⟩
    refine ⟨k, ?_⟩
    push_cast
    rw [mul_div_cancel_left₀ _ pos.ne', sub_self, abs_zero]
    exact nonneg

end Conform.Number
