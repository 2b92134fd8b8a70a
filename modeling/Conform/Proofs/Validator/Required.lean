import Conform.Proofs.Tag
import Conform.Proofs.Validator.Demand

/-! Fields that must be filled in. What counts as not filled in is decided by the kind of a value
first, and some kinds are not among those that are asked whether they are empty or zero. -/
namespace Conform

/-- Values that stand for nothing, of whatever kind: null, false, what is empty, and the zero of each
kind of number. -/
def Value.StandsForNothing : Value → Prop
  | .null => True
  | .bool b => b = false
  | .number n => n.value = .finite 0
  | .string s => s = ""
  | .bytes _ data => data = []
  | .array _ xs | .set xs => xs = []
  | .object _ ms => ms = []
  | .foreign .. | .record .. => False

/-- Kinds of values that are never taken for nothing, though some of their values stand for it. -/
def Value.Overlooked : Value → Prop
  | .number (.decimal _) | .number (.fraction _) | .bytes .mutable _ | .object .frozen _ => True
  | _ => False

theorem Extended.equal_zero_iff {x : Extended} : x.equal (.finite 0) = true ↔ x = .finite 0 := by
  cases x <;> simp [Extended.equal]

theorem Value.isZero_iff {v : Value} :
    v.isZero = true ↔ v.StandsForNothing ∧ ¬ v.Overlooked := by
  cases v with
  | number n =>
    cases n with
    | integer n => simp [Value.isZero, StandsForNothing, Overlooked, Number.value]
    | double x =>
      have zero : (Number.integer 0).value = .finite 0 := rfl
      simp [Value.isZero, StandsForNothing, Overlooked, Number.equal, zero, Extended.equal_zero_iff]
    | decimal | fraction => simp [Value.isZero, Overlooked]
  | bytes a data => cases a <;> simp [Value.isZero, StandsForNothing, Overlooked]
  | object a ms => cases a <;> simp [Value.isZero, StandsForNothing, Overlooked]
  | _ => simp [Value.isZero, StandsForNothing, Overlooked]

namespace Validator

variable {shared : Listing Checker} {tag : String} {value : Value} {v : Validator}

/-- How a check ends that asks a value to be filled in and nothing else. -/
def filledIn (path : String) (value : Value) : Except Failure Unit :=
  if value.isZero then .error (.findings [fieldRequired path]) else .ok ()

theorem result_validateVariable_of_asksForValueOnly (only : Tag.AsksForValueOnly tag) :
    (validateVariable shared value tag v).1.result = filledIn variableName value := by
  unfold validateVariable
  rw [Tag.parse_of_asksForValueOnly only]
  unfold filledIn
  cases value.isZero <;> rfl

theorem result_validateRecord_of_asksForValueOnly
    (plain : ∀ className fields, value ≠ .record className fields)
    (only : Tag.AsksForValueOnly tag) (hooks : v.hooks = {}) {labels : List (String × String)}
    (tagged : Listing.get? v.options.tagName labels = some tag) (className name : String) :
    (validateRecord shared (.record className [.mk name labels value]) v).1.result =
      filledIn name value := by
  rw [result_validateRecord_single plain hooks tagged, Tag.parse_of_asksForValueOnly only]
  unfold Demand.check filledIn
  cases value.isZero <;> rfl

theorem filledIn_eq_error_iff {path : String} :
    filledIn path value = .error (.findings [fieldRequired path]) ↔
      value.StandsForNothing ∧ ¬ value.Overlooked := by
  rw [← Value.isZero_iff, filledIn]
  cases value.isZero <;> simp

theorem filledIn_eq_ok {path : String} (filled : ¬ (value.StandsForNothing ∧ ¬ value.Overlooked)) :
    filledIn path value = .ok () := by
  rw [← Value.isZero_iff] at filled
  exact if_neg filled

/-- A tag that asks for a value and nothing else is failed exactly by the values that stand for
nothing, apart from those that are overlooked, on a variable as on the only field of a record. There
is one finding then, and nothing else ever goes wrong. -/
theorem required_fails_iff (plain : ∀ className fields, value ≠ .record className fields)
    (only : Tag.AsksForValueOnly tag) (hooks : v.hooks = {}) {labels : List (String × String)}
    (tagged : Listing.get? v.options.tagName labels = some tag) (className name : String) :
    let onVariable := (validateVariable shared value tag v).1.result
    let onRecord := (validateRecord shared (.record className [.mk name labels value]) v).1.result
    (onVariable = .error (.findings [fieldRequired "var"]) ↔
      value.StandsForNothing ∧ ¬ value.Overlooked) ∧
    (onRecord = .error (.findings [fieldRequired name]) ↔
      value.StandsForNothing ∧ ¬ value.Overlooked) ∧
    (¬ (value.StandsForNothing ∧ ¬ value.Overlooked) → onVariable = .ok () ∧ onRecord = .ok ()) ∧
    ∀ path, (fieldRequired path).message = "field is required" := by
  intro onVariable onRecord
  have variable_ : onVariable = filledIn "var" value :=
    result_validateVariable_of_asksForValueOnly only
  have record_ : onRecord = filledIn name value :=
    result_validateRecord_of_asksForValueOnly plain only hooks tagged className name
  rw [variable_, record_]
  exact ⟨filledIn_eq_error_iff, filledIn_eq_error_iff,
    fun filled => ⟨filledIn_eq_ok filled, filledIn_eq_ok filled⟩, fun _ => rfl⟩

/-- The word twice, with blanks and an empty part: an empty text is told and a filled one is not. -/
theorem required_fails_iff_twice :
    let v : Validator := {}
    let tag := " required,,required "
    let labels := [("validate", tag)]
    let empty : Value := .string ""
    (∀ className fields, empty ≠ .record className fields) ∧ Tag.AsksForValueOnly tag ∧
    v.hooks = {} ∧ Listing.get? v.options.tagName labels = some tag ∧
    (validateVariable [] empty tag v).1.result = .error (.findings [fieldRequired "var"]) ∧
    (validateRecord [] (.record "Account" [.mk "city" labels empty]) v).1.result =
      .error (.findings [fieldRequired "city"]) ∧
    (validateVariable [] (.string "Ys") tag v).1.result = .ok () := by
  intro v tag labels empty
  have only : Tag.AsksForValueOnly tag := by
    have blank : ∀ c ∈ [' '], Text.isBlank c = true := List.all_eq_true.mp rfl
    have first : Tag.AsksForValue " required".toList := ⟨[' '], [], blank, nofun, rfl⟩
    have last : Tag.AsksForValue "required ".toList := ⟨[], [' '], nofun, blank, rfl⟩
    refine ⟨[" required".toList, [], "required ".toList], by decide, ?_, _, .head _, first⟩
    simp only [List.forall_mem_cons]
    exact ⟨.inr first, .inl nofun, .inr last, nofun⟩
  obtain ⟨onVariable, onRecord, -⟩ :=
    @required_fails_iff [] tag empty v nofun only rfl labels rfl "Account" "city"
  obtain ⟨-, -, filled, -⟩ :=
    @required_fails_iff [] tag (.string "Ys") v nofun only rfl labels rfl "Account" "city"
  have nothing : empty.StandsForNothing ∧ ¬ empty.Overlooked := ⟨rfl, id⟩
  have something : ¬ (Value.string "Ys").StandsForNothing := by
    change "Ys" ≠ ""
    decide
  exact ⟨nofun, only, rfl, rfl, onVariable.mpr nothing, onRecord.mpr nothing,
    (filled fun h => something h.1).1⟩

/-- The zero of decimals is a number that equals zero, and a required field may hold it. -/
theorem required_passes_decimal_zero :
    let v : Validator := {}
    let zero : Value := .number (.decimal (.finite false 0 0))
    let labels := [("validate", "required")]
    zero.StandsForNothing ∧ Tag.AsksForValueOnly "required" ∧
    (validateVariable [] zero "required" v).1.result = .ok () ∧
    (validateRecord [] (.record "Account" [.mk "balance" labels zero]) v).1.result = .ok () := by
  intro v zero labels
  have word : Tag.AsksForValue "required".toList := ⟨[], [], nofun, nofun, rfl⟩
  have only : Tag.AsksForValueOnly "required" :=
    ⟨["required".toList], by decide, fun part hp => .inr (List.mem_singleton.mp hp ▸ word), _,
      .head _, word⟩
  have nothing : zero.StandsForNothing := by
    change Extended.finite (Decimal.valueOf false 0 0) = .finite 0
    simp [Decimal.valueOf]
  exact ⟨nothing, only, rfl, rfl⟩

end Validator

end Conform
