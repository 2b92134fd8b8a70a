import Conform.Proofs.Schema.Meaning
import Conform.Proofs.Value.Copies
import Conform.Rules.Leaf

/-! The rules that look at a value alone, each beside what its keyword means. A rule finds nothing
exactly where its keyword holds; that takes the total order of numbers without the value that is
none, and the symmetry of equality. -/
namespace Conform

theorem Bound.admits_eq_met (b : Bound) {n limit : Number} (hn : n.isNaN = false)
    (hl : limit.isNaN = false) : b.admits n limit = b.met n limit := by
  cases b with
  | minimum => exact Number.not_less hn hl
  | maximum => exact Number.not_less hl hn
  | exclusiveMinimum => exact Number.not_lessOrEqual hn hl
  | exclusiveMaximum => exact Number.not_lessOrEqual hl hn

namespace Value

theorem Json.real {n : Number} (h : Json (.number n)) : n.isNaN = false := by
  cases h with
  | number real => exact real

theorem eq_number_of_number? {v : Value} {n : Number} (h : v.number? = some n) :
    v = .number n := by
  cases v <;> simp_all [number?]

end Value

namespace Rules

variable {s : Subject}

/-- A check that gives one finding or none. -/
theorem guard_eq_nil_iff {b : Bool} {tag : String} {reason : Reason} {param : Option String} :
    (if b then [] else s.finding tag reason param) = [] ↔ b = true := by
  cases b <;> simp [Subject.finding]

/-- A value equals one of some frozen values where it equals one of the values. -/
theorem any_same_freeze (v : Value) (xs : List Value) :
    (xs.map Value.freeze).any (fun x => v.same x) = xs.any fun x => v.same x := by
  simp only [List.any_map, Function.comp_def, (Value.indistinct_freeze _).right]

theorem checkEnum_eq_nil_iff {a : Access} {xs : List Value} :
    checkEnum s (.array a (xs.map Value.freeze)) = [] ↔
      (xs.any fun allowed => s.value.same allowed) = true := by
  rw [← any_same_freeze]
  exact guard_eq_nil_iff

end Rules

end Conform
