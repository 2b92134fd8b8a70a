import Conform.Proofs.Draft7.Values
import Conform.Proofs.Value.Steps

/-! What JSON values mean, apart from how they are written. A number means what it stands for, and an
object the map from its names to what stands under them, so that its order is gone. Equality of JSON
values is equality of what they mean. -/
namespace Conform

/-- A JSON value as a mathematical object. -/
inductive Meaning
  | null
  | bool (b : Bool)
  /-- A rational or an infinity. -/
  | number (x : Extended)
  | string (s : String)
  | array (items : List Meaning)
  | object (members : String → Option Meaning)
  /-- What JSON cannot write. -/
  | other

/-- What stands one step further in a meaning. -/
def Meaning.step? : Meaning → Step → Option Meaning
  | .object members, .member name => members name
  | .array items, .element i => items[i]?
  | m, .branch _ => some m
  | _, _ => none

/-- What stands at the end of some steps. -/
def Meaning.follow? (m : Meaning) (steps : List Step) : Option Meaning :=
  steps.foldlM Meaning.step? m

namespace Value

mutual

def meaning : Value → Meaning
  | .null => .null
  | .bool b => .bool b
  | .number n => .number n.value
  | .string s => .string s
  | .array _ xs => .array (meaningItems xs)
  | .object _ ms => .object (meaningMembers ms)
  | _ => .other

def meaningItems : List Value → List Meaning
  | [] => []
  | x :: xs => x.meaning :: meaningItems xs

def meaningMembers : List (String × Value) → String → Option Meaning
  | [], _ => none
  | (n, v) :: ms, name => if n = name then some v.meaning else meaningMembers ms name

end

attribute [local simp] meaning meaningItems meaningMembers

theorem meaningItems_eq_map (xs : List Value) : meaningItems xs = xs.map meaning := by
  induction xs with
  | nil => rfl
  | cons x xs ih => rw [meaningItems, ih, List.map_cons]

theorem meaningMembers_eq (ms : List (String × Value)) (name : String) :
    meaningMembers ms name = (Listing.get? name ms).map meaning := by
  induction ms with
  | nil => rfl
  | cons m ms ih =>
    rw [meaningMembers, Listing.get?, ih]
    split <;> rfl

theorem meaning_array_eq_iff {a b : Access} {xs ys : List Value} :
    (array a xs).meaning = (array b ys).meaning ↔
      List.Forall₂ (fun x y => x.meaning = y.meaning) xs ys := by
  rw [meaning, meaning, Meaning.array.injEq, meaningItems_eq_map, meaningItems_eq_map,
    ← List.forall₂_eq_eq_eq, List.forall₂_map_left_iff, List.forall₂_map_right_iff]

theorem meaning_object_eq_iff {a b : Access} {ms ns : List (String × Value)} :
    (object a ms).meaning = (object b ns).meaning ↔ ∀ name,
      (Listing.get? name ms).map meaning = (Listing.get? name ns).map meaning := by
  rw [meaning, meaning, Meaning.object.injEq, funext_iff]
  simp only [meaningMembers_eq]

/-- The relation of equality only looks at what its sides mean. -/
theorem meaning_eq_of_equal {x y : Value} (h : Draft7.Equal x y) : x.meaning = y.meaning := by
  induction h with
  | null | bool | string => rfl
  | number value => rw [meaning, meaning, value]
  | array length _ ih =>
    rw [meaning_array_eq_iff, List.forall₂_iff_zip]
    exact ⟨length, fun {x y} => ih x y⟩
  | @object a b ms ns names _ ih =>
    rw [meaning_object_eq_iff]
    intro name
    cases hv : Listing.get? name ms with
    | none =>
      have absent : name ∉ Listing.names ns := by
        rw [← names, ← Listing.get?_eq_none_iff]
        exact hv
      rw [Listing.get?_eq_none_iff.mpr absent]
    | some v =>
      cases hw : Listing.get? name ns with
      | none =>
        rw [Listing.get?_eq_none_iff, ← names, ← Listing.get?_eq_none_iff, hv] at hw
        cases hw
      | some w => rw [Option.map_some, Option.map_some, ih name v w hv hw]

/-- What means the same as a JSON value is equal to it. -/
theorem equal_of_meaning_eq {x y : Value} (hx : x.JsonLike) (h : x.meaning = y.meaning) :
    Draft7.Equal x y := by
  induction hx generalizing y with
  | null =>
    cases y with
    | null => exact .null
    | _ => simp only [meaning, reduceCtorEq] at h
  | bool b =>
    cases y with
    | bool c =>
      rw [meaning, meaning, Meaning.bool.injEq] at h
      exact h ▸ .bool b
    | _ => simp only [meaning, reduceCtorEq] at h
  | string s =>
    cases y with
    | string t =>
      rw [meaning, meaning, Meaning.string.injEq] at h
      exact h ▸ .string s
    | _ => simp only [meaning, reduceCtorEq] at h
  | number m =>
    cases y with
    | number n =>
      rw [meaning, meaning, Meaning.number.injEq] at h
      exact .number h
    | _ => simp only [meaning, reduceCtorEq] at h
  | array _ ih =>
    cases y with
    | array b ys =>
      rw [meaning_array_eq_iff, List.forall₂_iff_zip] at h
      exact .array h.1 fun x y mem => ih x (List.of_mem_zip mem).1 (h.2 mem)
    | _ => simp only [meaning, reduceCtorEq] at h
  | @object a ms _ _ ih =>
    cases y with
    | object b ns =>
      rw [meaning_object_eq_iff] at h
      constructor
      · intro name
        have absent : Listing.get? name ms = none ↔ Listing.get? name ns = none := by
          rw [← Option.map_eq_none_iff (f := meaning), h, Option.map_eq_none_iff]
        rw [Listing.get?_eq_none_iff, Listing.get?_eq_none_iff] at absent
        exact not_iff_not.mp absent
      · intro name v w hv hw
        have same := h name
        rw [hv, hw, Option.map_some, Option.map_some, Option.some.injEq] at same
        exact ih _ (Listing.mem_of_get? hv) same
    | _ => simp only [meaning, reduceCtorEq] at h

theorem same_iff_meaning_eq {x y : Value} (hx : x.Json) (hy : y.Json) :
    x.same y = true ↔ x.meaning = y.meaning :=
  (Draft7.same_iff_equal hx hy).trans ⟨meaning_eq_of_equal, equal_of_meaning_eq hx.like⟩

/-- A step leads to the same place in a value and in what it means. -/
theorem map_meaning_step? (v : Value) (step : Step) :
    (v.step? step).map meaning = v.meaning.step? step := by
  cases step with
  | member name =>
    cases v <;> simp [step?, meaning, Meaning.step?, meaningMembers_eq]
  | element i =>
    cases v <;> simp [step?, meaning, Meaning.step?, meaningItems_eq_map]
  | branch i =>
    rw [step?_branch]
    cases v <;> rfl

theorem map_meaning_follow? (v : Value) (steps : List Step) :
    (v.follow? steps).map meaning = v.meaning.follow? steps := by
  induction steps generalizing v with
  | nil => rfl
  | cons step steps ih =>
    change _ = (v.meaning.step? step).bind fun m => m.follow? steps
    rw [follow?_cons, ← map_meaning_step?]
    cases v.step? step with
    | none => rfl
    | some w => exact ih w

theorem meaning_eq_bool_iff {v : Value} {b : Bool} : v.meaning = .bool b ↔ v = .bool b := by
  cases v <;> simp [meaning]

/-- A place holds a boolean exactly where it means one. -/
theorem follow?_eq_bool_iff {v : Value} {steps : List Step} {b : Bool} :
    v.follow? steps = some (.bool b) ↔ v.meaning.follow? steps = some (.bool b) := by
  rw [← map_meaning_follow?, Option.map_eq_some_iff]
  simp only [meaning_eq_bool_iff, exists_eq_right]

/-- Equality of JSON values is an equivalence, namely to mean the same: values of one kind, with equal
numbers, with equal elements in order, or with equal members under the same names. Equal values have
the same booleans in the same places, so that no boolean is ever taken for a number. -/
theorem same_is_equality_of_meaning :
    (Equivalence fun x y : {v : Value // v.Json} => x.1.same y.1 = true) ∧
    (∀ x y : {v : Value // v.Json}, x.1.same y.1 = true ↔ x.1.meaning = y.1.meaning) ∧
    ∀ x y : {v : Value // v.Json}, x.1.same y.1 = true → ∀ steps b,
      x.1.follow? steps = some (.bool b) ↔ y.1.follow? steps = some (.bool b) := by
  have means (x y : {v : Value // v.Json}) : x.1.same y.1 = true ↔ x.1.meaning = y.1.meaning :=
    same_iff_meaning_eq x.2 y.2
  refine ⟨?_, means, ?_⟩
  · simp only [means]
    exact ⟨fun _ => rfl, Eq.symm, Eq.trans⟩
  · intro x y same steps b
    rw [follow?_eq_bool_iff, follow?_eq_bool_iff, (means x y).mp same]

/-- One object in two writings: members turned round, a list and a tuple, whole numbers and doubles,
doubles and decimals. The boolean beside the one stays a boolean. -/
theorem same_is_equality_of_meaning_switch :
    let plain : Value := .object .mutable [("on", .list [.ofInt 1, .bool true]),
      ("rate", .number (.double ⟨false, 1022, 0⟩))]
    let exact : Value := .object .frozen [("rate", .number (.decimal (.finite false 50 (-2)))),
      ("on", .array .frozen [.number (.double ⟨false, 1023, 0⟩), .bool true])]
    plain.Json ∧ exact.Json ∧ plain.same exact = true ∧ exact.same plain = true ∧
    exact.follow? [.member "on", .element 1] = some (.bool true) := by
  intro plain exact
  have hplain : plain.Json := .object (by decide) (by
    simpa using ⟨.array (by simpa using ⟨.number rfl, .bool _⟩), .number (by decide)⟩)
  have hexact : exact.Json := .object (by decide) (by
    simpa using ⟨.number (by decide), .array (by simpa using ⟨.number (by decide), .bool _⟩)⟩)
  have same : plain.same exact = true := by decide +kernel
  obtain ⟨equivalence, -, booleans⟩ := same_is_equality_of_meaning
  have turned : exact.same plain = true :=
    equivalence.symm (x := ⟨plain, hplain⟩) (y := ⟨exact, hexact⟩) same
  have place := booleans ⟨plain, hplain⟩ ⟨exact, hexact⟩ same [.member "on", .element 1] true
  exact ⟨hplain, hexact, same, turned, place.mp rfl⟩

end Value

end Conform
