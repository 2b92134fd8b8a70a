import Conform.Number.Basic

/-! The order of numbers. Without the value that is no number it is total: what is not less is
greater or equal, across all kinds of number. -/
namespace Conform

namespace Extended

variable {a b : Extended}

theorem equal_comm (a b : Extended) : a.equal b = b.equal a := by
  cases a <;> cases b <;> simp [equal, Bool.beq_comm]

theorem eq_of_equal (h : a.equal b = true) : a = b := by
  cases a <;> cases b <;> simp_all [equal]

theorem not_less (ha : a ≠ .nan) (hb : b ≠ .nan) : (!a.less b) = b.lessOrEqual a := by
  cases a with
  | nan => exact absurd rfl ha
  | infinite m =>
    cases b with
    | nan => exact absurd rfl hb
    | infinite n => cases m <;> cases n <;> rfl
    | finite s => cases m <;> rfl
  | finite r =>
    cases b with
    | nan => exact absurd rfl hb
    | infinite n => cases n <;> rfl
    | finite s =>
      have h : ¬ r < s ↔ s < r ∨ s = r := Rat.not_lt.trans Rat.le_iff_lt_or_eq
      rw [Bool.eq_iff_iff]
      simp only [less, lessOrEqual, equal, Bool.not_eq_true', decide_eq_false_iff_not,
        Bool.or_eq_true, decide_eq_true_eq, beq_iff_eq]
      exact h

theorem not_lessOrEqual (ha : a ≠ .nan) (hb : b ≠ .nan) : (!a.lessOrEqual b) = b.less a := by
  rw [← not_less hb ha, Bool.not_not]

end Extended

namespace Number

def isNaN (n : Number) : Bool := n.value == .nan

variable {a b : Number}

theorem value_ne_nan (h : a.isNaN = false) : a.value ≠ .nan := by
  simpa [isNaN] using h

theorem equal_comm (a b : Number) : a.equal b = b.equal a := Extended.equal_comm _ _

/-- Equal numbers stand for the same. The converse fails for what is no number. -/
theorem value_eq_of_equal (h : a.equal b = true) : a.value = b.value := Extended.eq_of_equal h

theorem not_less (ha : a.isNaN = false) (hb : b.isNaN = false) : (!a.less b) = b.lessOrEqual a :=
  Extended.not_less (value_ne_nan ha) (value_ne_nan hb)

theorem not_lessOrEqual (ha : a.isNaN = false) (hb : b.isNaN = false) :
    (!a.lessOrEqual b) = b.less a :=
  Extended.not_lessOrEqual (value_ne_nan ha) (value_ne_nan hb)

end Number

end Conform
