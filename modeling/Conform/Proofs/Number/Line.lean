import Mathlib.Algebra.Order.Ring.Unbundled.Rat
import Mathlib.Order.WithBot
import Conform.Proofs.Number.Order

/-! The line of the rationals with both infinities, on which every number stands that is one. The
comparisons of numbers are the order of that line; where one side is no number they all fail. -/
namespace Conform

/-- The rationals between two infinities. -/
abbrev Line := WithBot (WithTop ℚ)

namespace Extended

/-- Where a number stands. What is no number stands nowhere. -/
def point? : Extended → Option Line
  | .finite r => some ((r : WithTop ℚ) : Line)
  | .infinite true => some ⊥
  | .infinite false => some ((⊤ : WithTop ℚ) : Line)
  | .nan => none

theorem less_iff {a b : Extended} :
    a.less b = true ↔ ∃ x y, a.point? = some x ∧ b.point? = some y ∧ x < y := by
  rcases a with r | (_ | _) | _ <;> rcases b with t | (_ | _) | _ <;>
    simp [less, point?, -WithBot.coe_top]

theorem equal_iff {a b : Extended} :
    a.equal b = true ↔ ∃ x, a.point? = some x ∧ b.point? = some x := by
  rcases a with r | (_ | _) | _ <;> rcases b with t | (_ | _) | _ <;>
    simp [equal, point?]
  exact eq_comm

theorem lessOrEqual_iff {a b : Extended} :
    a.lessOrEqual b = true ↔ ∃ x y, a.point? = some x ∧ b.point? = some y ∧ x ≤ y := by
  rw [lessOrEqual, Bool.or_eq_true, less_iff, equal_iff]
  constructor
  · rintro (⟨x, y, hx, hy, below⟩ | ⟨x, hx, hy⟩)
    · exact ⟨x, y, hx, hy, below.le⟩
    · exact ⟨x, x, hx, hy, le_rfl⟩
  · rintro ⟨x, y, hx, hy, below⟩
    rcases below.lt_or_eq with below | rfl
    · exact .inl ⟨x, y, hx, hy, below⟩
    · exact .inr ⟨x, hx, hy⟩

theorem point?_eq_none_iff {a : Extended} : a.point? = none ↔ a = .nan := by
  rcases a with r | (_ | _) | _ <;> simp [point?]

end Extended

namespace Number

def point? (n : Number) : Option Line := n.value.point?

variable {m n : Number} {x y : Line}

theorem point?_eq_none_iff : n.point? = none ↔ n.isNaN = true := by
  rw [isNaN, beq_iff_eq]
  exact Extended.point?_eq_none_iff

theorem exists_point (real : n.isNaN = false) : ∃ x, n.point? = some x := by
  apply Option.ne_none_iff_exists'.mp
  intro none
  rw [point?_eq_none_iff, real] at none
  cases none

/-- What stands somewhere is a number. -/
theorem real_of_point (hn : n.point? = some x) : n.isNaN = false := by
  rw [← Bool.not_eq_true, ← point?_eq_none_iff, hn]
  exact Option.some_ne_none x

theorem less_iff : m.less n = true ↔ ∃ x y, m.point? = some x ∧ n.point? = some y ∧ x < y :=
  Extended.less_iff

theorem lessOrEqual_iff :
    m.lessOrEqual n = true ↔ ∃ x y, m.point? = some x ∧ n.point? = some y ∧ x ≤ y :=
  Extended.lessOrEqual_iff

theorem less_iff_lt (hm : m.point? = some x) (hn : n.point? = some y) :
    m.less n = true ↔ x < y := by
  rw [less_iff]
  simp [hm, hn]

theorem lessOrEqual_iff_le (hm : m.point? = some x) (hn : n.point? = some y) :
    m.lessOrEqual n = true ↔ x ≤ y := by
  rw [lessOrEqual_iff]
  simp [hm, hn]

/-- Only numbers compare. -/
theorem real_of_less (h : m.less n = true) : m.isNaN = false ∧ n.isNaN = false := by
  obtain ⟨x, y, hm, hn, -⟩ := less_iff.mp h
  exact ⟨real_of_point hm, real_of_point hn⟩

theorem real_of_lessOrEqual (h : m.lessOrEqual n = true) :
    m.isNaN = false ∧ n.isNaN = false := by
  obtain ⟨x, y, hm, hn, -⟩ := lessOrEqual_iff.mp h
  exact ⟨real_of_point hm, real_of_point hn⟩

end Number

end Conform
