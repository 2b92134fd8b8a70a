import Mathlib.Algebra.Order.Ring.Abs
import Mathlib.Tactic.NormNum.Abs
import Conform.Proofs.Number.Multiple
import Conform.Rules.Leaf

/-! The rule of divisibility. What it asks of two numbers is said by their exact values alone, and its
guard against divisors that are not positive leaves no division that could fail. -/
namespace Conform.Rules

/-- A divisor that passes the guard is not zero. -/
theorem value_ne_zero_of_guard {d : Number} (guard : d.lessOrEqual zero = false) :
    d.value ≠ .finite 0 := by
  intro h
  have zeros : zero.value = .finite 0 := rfl
  rw [Number.lessOrEqual, h, zeros] at guard
  simp [Extended.lessOrEqual, Extended.equal] at guard

/-- Past its guard the rule finds something exactly where the numbers are no multiples. -/
theorem checkMultipleOf_of_guard {s : Subject} {n d : Number} {verdict : Bool}
    (value : s.value = .number n) (guard : d.lessOrEqual zero = false)
    (result : n.isMultipleOf d = .ok verdict) : checkMultipleOf s (.number d) =
      if verdict then []
      else s.finding Keyword.multipleOf.name (.notMultiple n.display d.display) d.display := by
  cases verdict <;> simp [checkMultipleOf, Value.number?, value, guard, result]

/-- Divisibility is decided by what the numbers stand for. Without a double, multiples are the whole
multiples; with one, they are what has a quotient within the tolerance of a whole number. What is not
finite is never a multiple. No value and no divisor that the rule lets through makes the division
fail, and the rule reports just the verdict. -/
theorem divisibility_decided (n d : Number) :
    Number.tolerance = 7737125245533627 / 2 ^ 86 ∧
    (∀ a b : ℚ, n.value = .finite a → d.value = .finite b → 0 < b →
      ∃ verdict, n.isMultipleOf d = .ok verdict ∧
        (n.isDouble = false ∧ d.isDouble = false → (verdict = true ↔ ∃ k : ℤ, a = k * b)) ∧
        (n.isDouble = true ∨ d.isDouble = true →
          (verdict = true ↔ ∃ k : ℤ, |a / b - k| ≤ Number.tolerance))) ∧
    ((∀ a, n.value ≠ .finite a) ∨ (∀ b, d.value ≠ .finite b) → n.isMultipleOf d = .ok false) ∧
    ∀ s : Subject, s.value = .number n → d.lessOrEqual zero = false →
      ∃ verdict, n.isMultipleOf d = .ok verdict ∧ checkMultipleOf s (.number d) =
        if verdict then []
        else s.finding Keyword.multipleOf.name (.notMultiple n.display d.display) d.display := by
  refine ⟨Number.tolerance_eq, ?_, Number.isMultipleOf_of_not_finite, ?_⟩
  · intro a b hn hd positive
    cases double : n.isDouble || d.isDouble with
    | false =>
      obtain ⟨verdict, result, whole⟩ := Number.isMultipleOf_exact hn hd positive.ne' double
      refine ⟨verdict, result, fun _ => whole, fun some => ?_⟩
      rw [← Bool.or_eq_true, double] at some
      cases some
    | true =>
      obtain ⟨verdict, result, near⟩ := Number.isMultipleOf_near hn hd positive.ne' double
      refine ⟨verdict, result, fun none => ?_, fun _ => near⟩
      rw [none.1, none.2] at double
      cases double
  · intro s value guard
    obtain ⟨verdict, result⟩ := Number.exists_isMultipleOf (n := n) (value_ne_zero_of_guard guard)
    exact ⟨verdict, result, checkMultipleOf_of_guard value guard result⟩

/-- Three tenths and a tenth as doubles, neither of which is what it is written as: the quotient misses
three, but not by more than the tolerance. -/
theorem divisibility_decided_tenths :
    let three : Number := .double ⟨false, 1021, 900719925474099⟩
    let one : Number := .double ⟨false, 1019, 2702159776422298⟩
    let s : Subject := ⟨{}, .number three, .ofString "$"⟩
    three.value = .finite (5404319552844595 / 2 ^ 54) ∧
    one.value = .finite (3602879701896397 / 2 ^ 55) ∧
    three.isDouble = true ∧ one.lessOrEqual zero = false ∧
    three.isMultipleOf one = .ok true ∧ checkMultipleOf s (.number one) = [] := by
  intro three one s
  have hthree : three.value = .finite (5404319552844595 / 2 ^ 54) := by decide +kernel
  have hone : one.value = .finite (3602879701896397 / 2 ^ 55) := by decide +kernel
  have guard : one.lessOrEqual zero = false := by decide +kernel
  obtain ⟨exact, finite, -, rule⟩ := divisibility_decided three one
  obtain ⟨verdict, result, -, near⟩ := finite _ _ hthree hone (by norm_num)
  have close : |(5404319552844595 / 2 ^ 54 : ℚ) / (3602879701896397 / 2 ^ 55) - (3 : ℤ)| ≤
      Number.tolerance := by
    rw [exact, abs_le]
    norm_num
  obtain rfl := (near (.inl rfl)).mpr ⟨3, close⟩
  obtain ⟨verdict, result', report⟩ := rule s rfl guard
  obtain rfl := Except.ok.inj (result'.symm.trans result)
  exact ⟨hthree, hone, rfl, guard, result, report⟩

end Conform.Rules
