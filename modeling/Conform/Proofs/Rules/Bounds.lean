import Conform.Comparator
import Conform.Proofs.Number.Line
import Conform.Proofs.Rules.Meaning
import Conform.Proofs.Rules.Walk
import Conform.Proofs.Schema.Vocabulary
import Conform.Schema.Compile

/-! Bounds beside comparators. A rule finds fault where the comparison that a bound forbids holds, and
a comparator holds where the one that it names does. The order of numbers makes the two the same, but
what is no number is in no order: it passes every bound, and no comparator holds of it. -/
namespace Conform

/-- The name of the comparator that says what a bound asks. -/
def Bound.comparator : Bound → String
  | .minimum => "ge"
  | .maximum => "le"
  | .exclusiveMinimum => "gt"
  | .exclusiveMaximum => "lt"

/-- Whether the stock comparator of a name holds. -/
def Comparator.builtinHolds (name : String) (x y : Value) : Bool :=
  (Listing.get? name builtins).any fun c => c.holds x y

namespace Bound

/-- Where a number has to stand to keep a bound. -/
def Relates : Bound → Line → Line → Prop
  | .minimum, x, y => y ≤ x
  | .maximum, x, y => x ≤ y
  | .exclusiveMinimum, x, y => y < x
  | .exclusiveMaximum, x, y => x < y

/-- The bound that is kept by just those numbers that break this one. -/
def opposite : Bound → Bound
  | .minimum => .exclusiveMaximum
  | .maximum => .exclusiveMinimum
  | .exclusiveMinimum => .maximum
  | .exclusiveMaximum => .minimum

variable {n limit : Number} {x y : Line}

theorem builtinHolds_comparator (b : Bound) (n limit : Number) :
    Comparator.builtinHolds b.comparator (.number n) (.number limit) = b.met n limit := by
  cases b <;> rfl

theorem met_iff_relates {b : Bound} (hn : n.point? = some x) (hl : limit.point? = some y) :
    b.met n limit = true ↔ b.Relates x y := by
  cases b with
  | minimum => exact Number.lessOrEqual_iff_le hl hn
  | maximum => exact Number.lessOrEqual_iff_le hn hl
  | exclusiveMinimum => exact Number.less_iff_lt hl hn
  | exclusiveMaximum => exact Number.less_iff_lt hn hl

/-- A bound is only kept by a number, and only where it is one itself. -/
theorem real_of_met {b : Bound} (met : b.met n limit = true) :
    n.isNaN = false ∧ limit.isNaN = false := by
  cases b with
  | minimum => exact (Number.real_of_lessOrEqual met).symm
  | maximum => exact Number.real_of_lessOrEqual met
  | exclusiveMinimum => exact (Number.real_of_less met).symm
  | exclusiveMaximum => exact Number.real_of_less met

theorem met_of_isNaN (b : Bound) (nan : n.isNaN = true ∨ limit.isNaN = true) :
    b.met n limit = false := by
  rw [← Bool.not_eq_true]
  intro met
  simp [real_of_met met] at nan

/-- The comparisons behind a bound are the order of the line. -/
theorem met_iff {b : Bound} : b.met n limit = true ↔
    ∃ x y, n.point? = some x ∧ limit.point? = some y ∧ b.Relates x y := by
  constructor
  · intro met
    obtain ⟨x, hx⟩ := Number.exists_point (real_of_met met).1
    obtain ⟨y, hy⟩ := Number.exists_point (real_of_met met).2
    exact ⟨x, y, hx, hy, (met_iff_relates hx hy).mp met⟩
  · rintro ⟨x, y, hx, hy, relates⟩
    exact (met_iff_relates hx hy).mpr relates

/-- What a rule looks for is whether the opposite bound is kept. -/
theorem admits_eq_not_opposite (b : Bound) (n limit : Number) :
    b.admits n limit = !b.opposite.met n limit := by
  cases b <;> rfl

/-- The two ways of testing a bound differ on what is no number, and on nothing else. -/
theorem admits_iff (b : Bound) : b.admits n limit = true ↔
    b.met n limit = true ∨ n.isNaN = true ∨ limit.isNaN = true := by
  by_cases nan : n.isNaN = true ∨ limit.isNaN = true
  · simp [admits_eq_not_opposite, met_of_isNaN, nan]
  · rw [not_or, Bool.not_eq_true, Bool.not_eq_true] at nan
    rw [admits_eq_met b nan.1 nan.2]
    simp [nan]

end Bound

def Number.isDecimal : Number → Bool
  | .decimal _ => true
  | _ => false

/-- Decimals are put in order with numbers only; beside one, what is no number has no place. -/
def Number.Comparable (m n : Number) : Prop :=
  m.isNaN = true ∨ n.isNaN = true → m.isDecimal = false ∧ n.isDecimal = false

namespace Rules

/-- A bound finds nothing on the numbers that it admits, and only on them. -/
theorem checkBound_nil_iff {b : Bound} {s : Subject} {limit : Number} :
    checkBound b s (.number limit) = [] ↔
      ∃ n, s.value = .number n ∧ b.admits n limit = true := by
  unfold checkBound
  cases hv : s.value.number? with
  | none =>
    have other (n : Number) : s.value ≠ .number n := fun value => by simp [value, Value.number?] at hv
    simp [other, Subject.finding]
  | some n =>
    rw [Value.eq_number_of_number? hv]
    refine guard_eq_nil_iff.trans ?_
    simp

/-- A schema with a bound on each side. -/
def rangeSchema (low high : Number) : Value :=
  .object .mutable [("minimum", .number low), ("maximum", .number high)]

def rangeNode (mode : Mode) (low high : Number) : Node :=
  .mk mode [.mk "minimum" (.plain (.number low)) (some (.of (.bound .minimum))),
    .mk "maximum" (.plain (.number high)) (some (.of (.bound .maximum)))] [] []

theorem compileSchema_rangeSchema (mode : Mode) (low high : Number) :
    (compileSchema Rule.builtins mode (rangeSchema low high)).result =
      .ok (rangeNode mode low high) := rfl

/-- A run through a range only comes to nothing on numbers that both bounds admit. -/
theorem evaluate_rangeNode {mode : Mode} {low high : Number} {s : Subject} :
    (evaluate s (rangeNode mode low high)).result = .ok [] ↔ ∃ n, s.value = .number n ∧
      Bound.minimum.admits n low = true ∧ Bound.maximum.admits n high = true := by
  rw [evaluate_eq]
  change (runEntries _ (rangeNode mode low high).entries).result = .ok [] ↔ _
  rw [result_runEntries_eq_nil_iff]
  simp only [rangeNode, Node.entries, List.forall_mem_cons, List.not_mem_nil, false_implies,
    implies_true, and_true]
  change Except.ok (checkBound .minimum _ (.number low)) = .ok [] ∧
    Except.ok (checkBound .maximum _ (.number high)) = .ok [] ↔ _
  rw [Except.ok.injEq, Except.ok.injEq, checkBound_nil_iff, checkBound_nil_iff]
  change (∃ n, s.value = .number n ∧ _) ∧ (∃ n, s.value = .number n ∧ _) ↔ _
  constructor
  · rintro ⟨⟨n, value, above⟩, m, again, below⟩
    obtain rfl : n = m := Value.number.inj (value.symm.trans again)
    exact ⟨n, value, above, below⟩
  · rintro ⟨n, value, above, below⟩
    exact ⟨⟨n, value, above⟩, n, value, below⟩

/-- Between two bounds that are numbers, a run passes the numbers that stand between them. -/
theorem evaluate_rangeNode_iff {mode : Mode} {low high : Number} {s : Subject}
    (hlow : low.isNaN = false) (hhigh : high.isNaN = false)
    (real : ∀ n, s.value = .number n → n.isNaN = false) :
    (evaluate s (rangeNode mode low high)).result = .ok [] ↔ ∃ n x y z, s.value = .number n ∧
      low.point? = some x ∧ n.point? = some y ∧ high.point? = some z ∧ x ≤ y ∧ y ≤ z := by
  obtain ⟨x, hx⟩ := Number.exists_point hlow
  obtain ⟨z, hz⟩ := Number.exists_point hhigh
  rw [evaluate_rangeNode]
  apply exists_congr
  intro n
  constructor
  · rintro ⟨value, above, below⟩
    obtain ⟨y, hy⟩ := Number.exists_point (real n value)
    rw [Bound.admits_eq_met _ (real n value) hlow, Bound.met_iff_relates hy hx] at above
    rw [Bound.admits_eq_met _ (real n value) hhigh, Bound.met_iff_relates hy hz] at below
    exact ⟨x, y, z, value, hx, hy, hz, above, below⟩
  · rintro ⟨x', y, z', value, hx', hy, hz', above, below⟩
    rw [Bound.admits_eq_met _ (real n value) hlow, Bound.met_iff_relates hy hx',
      Bound.admits_eq_met _ (real n value) hhigh, Bound.met_iff_relates hy hz']
    exact ⟨value, above, below⟩

/-- A bound is kept where its comparator holds, and passed besides by what is no number and under a
limit that is none. The comparator is the order of the line and fails for those. So between numbers a
range admits just what stands in it, and nothing if its ends are the wrong way round. -/
theorem bounds_beside_comparators (mode : Mode) (s : Subject) (low high : Number) :
    (∀ (b : Bound) (n limit : Number), s.value = .number n → n.Comparable limit →
      (checkBound b s (.number limit) = [] ↔
        Comparator.builtinHolds b.comparator s.value (.number limit) = true ∨
          n.isNaN = true ∨ limit.isNaN = true) ∧
      (Comparator.builtinHolds b.comparator s.value (.number limit) = true ↔
        ∃ x y, n.point? = some x ∧ limit.point? = some y ∧ b.Relates x y)) ∧
    (low.isNaN = false → high.isNaN = false → (∀ n, s.value = .number n → n.isNaN = false) →
      ∃ node, (compileSchema Rule.builtins mode (rangeSchema low high)).result = .ok node ∧
        ((evaluate s node).result = .ok [] ↔ ∃ n x y z, s.value = .number n ∧
          low.point? = some x ∧ n.point? = some y ∧ high.point? = some z ∧ x ≤ y ∧ y ≤ z) ∧
        (high.less low = true → (evaluate s node).result ≠ .ok [])) := by
  constructor
  · intro b n limit value _
    rw [value, Bound.builtinHolds_comparator, checkBound_nil_iff, value, ← b.admits_iff]
    refine ⟨?_, Bound.met_iff⟩
    simp
  · intro hlow hhigh real
    have between : (evaluate s (rangeNode mode low high)).result = .ok [] ↔ _ :=
      evaluate_rangeNode_iff hlow hhigh real
    refine ⟨rangeNode mode low high, compileSchema_rangeSchema mode low high, between, ?_⟩
    intro crossed passes
    obtain ⟨n, x, y, z, -, hx, -, hz, above, below⟩ := between.mp passes
    rw [Number.less_iff_lt hz hx] at crossed
    exact absurd (above.trans below) (not_le.mpr crossed)

/-- Three halves stand between a decimal of the same value and infinity, which leave nothing between
them if they change places. A double that is no number passes a bound whose comparator it fails. -/
theorem bounds_beside_comparators_halves :
    let s (n : Number) : Subject := ⟨{}, .number n, .ofString "$"⟩
    let low : Number := .decimal (.finite false 15 (-1))
    let high : Number := .double (.infinity false)
    let node : Node := rangeNode .strict low high
    let crossed : Node := rangeNode .strict high low
    Number.Comparable (.double .nan) high ∧
    checkBound .maximum (s (.double .nan)) (.number high) = [] ∧
    low.isNaN = false ∧ high.isNaN = false ∧ low.less high = true ∧
    (evaluate (s (.fraction (3 / 2))) node).result = .ok [] ∧
    (evaluate (s (.fraction (3 / 2))) crossed).result ≠ .ok [] := by
  intro s low high node crossed
  have hlow : low.isNaN = false := by decide +kernel
  have hhigh : high.isNaN = false := by decide +kernel
  have apart : low.less high = true := by decide +kernel
  have comparable : Number.Comparable (.double .nan) high := fun _ => ⟨rfl, rfl⟩
  have real (n : Number) (h : (s (.fraction (3 / 2))).value = .number n) : n.isNaN = false := by
    cases h
    rfl
  obtain ⟨single, -⟩ := bounds_beside_comparators .strict (s (.double .nan)) low high
  have none := (single .maximum (.double .nan) high rfl comparable).1.mpr
    (.inr (.inl (by decide +kernel)))
  obtain ⟨-, range⟩ := bounds_beside_comparators .strict (s (.fraction (3 / 2))) low high
  obtain ⟨_, compiled, between, -⟩ := range hlow hhigh real
  obtain rfl := Except.ok.inj compiled
  obtain ⟨-, range⟩ := bounds_beside_comparators .strict (s (.fraction (3 / 2))) high low
  obtain ⟨_, compiled, -, empty⟩ := range hhigh hlow real
  obtain rfl := Except.ok.inj compiled
  have low_point : low.point? = some ((3 / 2 : ℚ) : WithTop ℚ) := by decide +kernel
  have passes := between.mpr
    ⟨.fraction (3 / 2), _, _, _, rfl, low_point, rfl, rfl, le_rfl, le_top⟩
  exact ⟨comparable, none, hlow, hhigh, apart, passes, empty apart⟩

/-- What is no number passes between two and one, a range that is empty, and no comparator holds of
it. -/
theorem nan_passes_empty_range :
    let nan : Value := .number (.double .nan)
    let s : Subject := ⟨{}, nan, .ofString "$"⟩
    ∃ node, (compileSchema Rule.builtins .strict (rangeSchema (.ofInt 2) (.ofInt 1))).result =
        .ok node ∧
      (evaluate s node).result = .ok [] ∧
      checkBound .minimum s (.ofInt 2) = [] ∧ Comparator.builtinHolds "ge" nan (.ofInt 2) = false ∧
      checkBound .maximum s (.ofInt 1) = [] ∧ Comparator.builtinHolds "le" nan (.ofInt 1) = false := by
  intro nan s
  have fails (b : Bound) (n : Int) : Comparator.builtinHolds b.comparator nan (.ofInt n) = false :=
    (b.builtinHolds_comparator _ _).trans (b.met_of_isNaN (.inl (by decide +kernel)))
  have admitted (b : Bound) (n : Int) : b.admits (.double .nan) (.integer n) = true :=
    b.admits_iff.mpr (.inr (.inl (by decide +kernel)))
  have bound (b : Bound) (n : Int) : checkBound b s (.ofInt n) = [] :=
    checkBound_nil_iff.mpr ⟨_, rfl, admitted b n⟩
  refine ⟨_, compileSchema_rangeSchema _ _ _, ?_, bound _ _, fails .minimum _, bound _ _,
    fails .maximum _⟩
  exact evaluate_rangeNode.mpr ⟨_, rfl, admitted _ _, admitted _ _⟩

end Rules

end Conform
