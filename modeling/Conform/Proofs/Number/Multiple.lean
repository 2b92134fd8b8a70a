import Mathlib.Algebra.Order.Field.Basic
import Conform.Proofs.Number.Nearest

/-! Divisibility of numbers. Exact numbers are multiples where the quotient is whole, and with a double
it is enough that the quotient is near a whole number. For whole numbers the two say the same, however
they are written, as long as the divisor has at most ten digits. -/
namespace Conform.Number

/-- The double that `1e-10` is read as lies a little above it. -/
theorem tolerance_eq : tolerance = 7737125245533627 / 2 ^ 86 := by decide +kernel

theorem tolerance_nonneg : 0 ≤ tolerance := by
  rw [tolerance_eq]
  norm_num

variable {n d : Number} {a b : ℚ}

/-- Without a double the quotient has to be whole. -/
theorem isMultipleOf_exact (hn : n.value = .finite a) (hd : d.value = .finite b) (nonzero : b ≠ 0)
    (exact : (n.isDouble || d.isDouble) = false) :
    ∃ verdict, n.isMultipleOf d = .ok verdict ∧ (verdict = true ↔ ∃ k : ℤ, a = k * b) := by
  refine ⟨remainder a b == 0, ?_, ?_⟩
  · simp [isMultipleOf, hn, hd, exact, nonzero]
  · rw [beq_iff_eq]
    exact remainder_eq_zero_iff nonzero

/-- With a double it has to be near a whole number, and nearest is near enough. -/
theorem isMultipleOf_near (hn : n.value = .finite a) (hd : d.value = .finite b) (nonzero : b ≠ 0)
    (double : (n.isDouble || d.isDouble) = true) :
    ∃ verdict, n.isMultipleOf d = .ok verdict ∧
      (verdict = true ↔ ∃ k : ℤ, |a / b - k| ≤ tolerance) := by
  refine ⟨offWhole (a / b) ≤ tolerance, ?_, ?_⟩
  · simp [isMultipleOf, hn, hd, double, nonzero]
  · rw [decide_eq_true_eq]
    exact offWhole_le_iff

/-- What is infinite or no number is no multiple and has none. -/
theorem isMultipleOf_of_not_finite (h : (∀ a, n.value ≠ .finite a) ∨ ∀ b, d.value ≠ .finite b) :
    n.isMultipleOf d = .ok false := by
  unfold isMultipleOf
  split
  · next a b hn hd => exact absurd (h.imp (· a hn) (· b hd)) (by simp)
  · rfl

/-- Divisibility ends without a fault unless the divisor is zero. -/
theorem exists_isMultipleOf (nonzero : d.value ≠ .finite 0) :
    ∃ verdict, n.isMultipleOf d = .ok verdict := by
  cases hn : n.value with
  | finite a =>
    cases hd : d.value with
    | finite b =>
      have nonzero : b ≠ 0 := fun zero => nonzero (hd.trans (congrArg _ zero))
      cases double : n.isDouble || d.isDouble with
      | false =>
        obtain ⟨verdict, h, -⟩ := isMultipleOf_exact hn hd nonzero double
        exact ⟨verdict, h⟩
      | true =>
        obtain ⟨verdict, h, -⟩ := isMultipleOf_near hn hd nonzero double
        exact ⟨verdict, h⟩
    | _ => exact ⟨false, isMultipleOf_of_not_finite (.inr (by simp [hd]))⟩
  | _ => exact ⟨false, isMultipleOf_of_not_finite (.inl (by simp [hn]))⟩

/-- One part in the divisor is more than the tolerance for all divisors of ten digits. -/
theorem tolerance_lt_one_div {m : ℤ} (positive : 0 < m) (small : m < 10 ^ 10) :
    tolerance < 1 / m := by
  have pos : (0 : ℚ) < m := by exact_mod_cast positive
  have most : (m : ℚ) ≤ 9999999999 := by
    have : m ≤ 9999999999 := by omega
    exact_mod_cast this
  calc tolerance < 1 / 9999999999 := by rw [tolerance_eq]; norm_num
    _ ≤ 1 / m := one_div_le_one_div_of_le pos most

theorem exists_eq_mul_iff_dvd {i m : ℤ} : (∃ k : ℤ, (i : ℚ) = k * m) ↔ m ∣ i := by
  constructor
  · rintro ⟨k, h⟩
    have whole : i = k * m := by exact_mod_cast h
    exact ⟨k, whole.trans (mul_comm k m)⟩
  · rintro ⟨k, rfl⟩
    exact ⟨k, by push_cast; exact mul_comm _ _⟩

/-- Whole numbers are divided as whole numbers, whatever they are written as, if the divisor has no
more than ten digits: no double among them comes near a whole quotient without having one. -/
theorem isMultipleOf_whole {i m : ℤ} (hn : n.value = .finite i) (hd : d.value = .finite m)
    (positive : 0 < m) (small : m < 10 ^ 10) : n.isMultipleOf d = .ok (decide (m ∣ i)) := by
  have nonzero : (m : ℚ) ≠ 0 := by exact_mod_cast positive.ne'
  have decided {verdict : Bool} (h : verdict = true ↔ m ∣ i) : verdict = decide (m ∣ i) := by
    rw [Bool.eq_iff_iff, h, decide_eq_true_eq]
  cases double : n.isDouble || d.isDouble with
  | false =>
    obtain ⟨verdict, result, whole⟩ := isMultipleOf_exact hn hd nonzero double
    rw [result, decided (whole.trans exists_eq_mul_iff_dvd)]
  | true =>
    obtain ⟨verdict, result, near⟩ := isMultipleOf_near hn hd nonzero double
    have limit := tolerance_lt_one_div positive small
    rw [result, decided (near.trans (exists_near_iff_dvd positive tolerance_nonneg limit))]

/-- The largest such divisor, against a one and a multiple that are written in other ways. One part in
it is as close to the tolerance as it gets. -/
theorem isMultipleOf_whole_nines :
    let one : Number := .double ⟨false, 1023, 0⟩
    let thrice : Number := .double ⟨false, 1057, 3360720371843072⟩
    let nines : Number := .decimal (.finite false 9999999999 0)
    one.value = .finite (1 : ℤ) ∧ thrice.value = .finite (29999999997 : ℤ) ∧
    nines.value = .finite (9999999999 : ℤ) ∧
    one.isMultipleOf nines = .ok false ∧ thrice.isMultipleOf nines = .ok true := by
  intro one thrice nines
  have hone : one.value = .finite (1 : ℤ) := by decide +kernel
  have hthrice : thrice.value = .finite (29999999997 : ℤ) := by decide +kernel
  have hnines : nines.value = .finite (9999999999 : ℤ) := by decide +kernel
  refine ⟨hone, hthrice, hnines, ?_, ?_⟩
  · exact isMultipleOf_whole hone hnines (by decide) (by decide)
  · exact isMultipleOf_whole hthrice hnines (by decide) (by decide)

/-- The next divisor has eleven digits, and a one written as a double is a multiple of it. -/
example : ((integer 1).isMultipleOf (integer 10000000000)).toOption = some false ∧
    ((double ⟨false, 1023, 0⟩).isMultipleOf (integer 10000000000)).toOption = some true := by
  decide +kernel

end Conform.Number
