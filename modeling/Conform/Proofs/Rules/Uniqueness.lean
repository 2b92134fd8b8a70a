import Mathlib.Data.List.Nodup
import Conform.Proofs.Value.Meaning
import Conform.Rules.Leaf

/-! The rule of unique elements. It looks back from each element to those before it, which is to ask
that no two elements mean the same; so neither the order of an array matters nor how its elements
are written, and leaving some out never makes two the same. -/
namespace Conform

namespace Value

/-- Only a JSON value equals a JSON value. -/
theorem Json.of_same {x y : Value} (hx : x.Json) (h : x.same y = true) : y.Json := by
  induction hx generalizing y with
  | null | bool | string =>
    cases y <;> simp only [same, Bool.false_eq_true] at h
    constructor
  | number real =>
    cases y <;> simp only [same, Bool.false_eq_true] at h
    refine .number ?_
    rw [Number.isNaN, ← Number.value_eq_of_equal h]
    exact real
  | array _ ih =>
    cases y <;> simp only [same, Bool.false_eq_true, sameItems_iff] at h
    refine .array fun y hy => ?_
    obtain ⟨x, hx, equal⟩ := exists_left_of_forall₂ h hy
    exact ih x hx equal
  | object distinct _ ih =>
    cases y <;> simp only [same, Bool.false_eq_true, Bool.and_eq_true, beq_iff_eq,
      sameMembers_iff] at h
    have members := rearranged_of_found (R := fun v w => v.same w = true) distinct h.1 h.2
    refine .object ?_ fun n hn => ?_
    · exact members.names_perm.nodup distinct
    · obtain ⟨m, hm, named⟩ := members.exists_left hn
      exact ih m hm (Named.iff.mp named).2

end Value

namespace Rules

open Value (meaning)

variable {seen xs : List Value}

/-- What was seen stays without two of one meaning as long as the scan goes on. -/
theorem distinct_iff_nodup (json : ∀ x ∈ seen ++ xs, x.Json) (apart : (seen.map meaning).Nodup) :
    distinct seen xs = true ↔ ((seen ++ xs).map meaning).Nodup := by
  induction xs generalizing seen with
  | nil => simpa [distinct] using apart
  | cons x xs ih =>
    have split : seen ++ x :: xs = seen ++ [x] ++ xs := by simp
    have hx : x.Json := json x (by simp)
    have met : (seen.any fun y => x.same y) = true ↔ x.meaning ∈ seen.map meaning := by
      rw [List.any_eq_true, List.mem_map]
      refine exists_congr fun y => and_congr_right fun hy => ?_
      rw [Value.same_iff_meaning_eq hx (json y (List.mem_append_left _ hy)), eq_comm]
    rw [distinct, Bool.and_eq_true, Bool.not_eq_true', ← Bool.not_eq_true, met]
    by_cases repeated : x.meaning ∈ seen.map meaning
    · -- the element and its like both stand in the whole array
      refine iff_of_false (fun h => h.1 repeated) fun nodup => ?_
      rw [List.map_append, List.map_cons] at nodup
      exact List.disjoint_of_nodup_append nodup repeated (.head _)
    · have fresh : ((seen ++ [x]).map meaning).Nodup := by
        rw [List.map_append, List.map_singleton, ← List.concat_eq_append]
        exact apart.concat repeated
      rw [ih (split ▸ json) fresh, ← split]
      exact and_iff_right repeated

/-- The rule lets an array pass, asked for unique elements. -/
def PassesUnique (frame : Frame) (path : Path) (a : Access) (xs : List Value) : Prop :=
  checkUniqueItems ⟨frame, .array a xs, path⟩ (.bool true) = []

variable {frame : Frame} {path : Path} {a : Access}

theorem passesUnique_iff (json : ∀ x ∈ xs, x.Json) :
    PassesUnique frame path a xs ↔ (xs.map meaning).Nodup := by
  have scan : distinct [] xs = true ↔ (xs.map meaning).Nodup := distinct_iff_nodup json .nil
  rw [← scan, PassesUnique]
  cases found : distinct [] xs <;> simp [checkUniqueItems, found, Subject.finding]

/-- The rule of unique elements lets an array pass just if no two elements at different places are
equal. So it does with the elements in any other order, with an element exchanged for an equal one,
and with some of the elements left out. -/
theorem uniqueness_pairwise (frame : Frame) (path : Path) (a : Access) (xs : List Value)
    (json : ∀ x ∈ xs, x.Json) :
    (PassesUnique frame path a xs ↔ ∀ (i j : Nat) (hi : i < xs.length) (hj : j < xs.length),
      i ≠ j → xs[i].same xs[j] = false) ∧
    (∀ ys, xs.Perm ys → (PassesUnique frame path a ys ↔ PassesUnique frame path a xs)) ∧
    (PassesUnique frame path a xs.reverse ↔ PassesUnique frame path a xs) ∧
    (∀ (i : Nat) (hi : i < xs.length) (v : Value), xs[i].same v = true →
      (PassesUnique frame path a (xs.set i v) ↔ PassesUnique frame path a xs)) ∧
    ∀ ys, ys.Sublist xs → PassesUnique frame path a xs → PassesUnique frame path a ys := by
  have reordered (ys : List Value) (perm : xs.Perm ys) :
      PassesUnique frame path a ys ↔ PassesUnique frame path a xs := by
    rw [passesUnique_iff json, passesUnique_iff fun y hy => json y (perm.mem_iff.mpr hy)]
    exact (perm.map meaning).nodup_iff.symm
  refine ⟨?_, reordered, reordered _ xs.reverse_perm.symm, ?_, ?_⟩
  · have apart (i j : Nat) (hi : i < xs.length) (hj : j < xs.length) :
        xs[i].same xs[j] = false ↔ xs[i].meaning ≠ xs[j].meaning := by
      rw [← Bool.not_eq_true, Value.same_iff_meaning_eq (json _ (List.getElem_mem hi))
        (json _ (List.getElem_mem hj))]
    rw [passesUnique_iff json, List.Nodup, List.pairwise_map, List.pairwise_iff_getElem]
    simp only [apart]
    constructor
    · intro each i j hi hj other
      rcases Nat.lt_or_gt_of_ne other with before | after
      · exact each i j hi hj before
      · exact (each j i hj hi after).symm
    · exact fun each i j hi hj before => each i j hi hj before.ne
  · intro i hi v equal
    have hv : v.Json := (json _ (List.getElem_mem hi)).of_same equal
    have same : (xs.set i v).map meaning = xs.map meaning := by
      rw [List.map_set, ← (Value.same_iff_meaning_eq (json _ (List.getElem_mem hi)) hv).mp equal,
        ← List.getElem_map meaning (h := by simpa using hi), List.set_getElem_self]
    have json' : ∀ x ∈ xs.set i v, x.Json := by
      intro x hx
      rcases List.mem_or_eq_of_mem_set hx with old | rfl
      · exact json x old
      · exact hv
    rw [passesUnique_iff json, passesUnique_iff json', same]
  · intro ys sub
    rw [passesUnique_iff json, passesUnique_iff fun y hy => json y (sub.mem hy)]
    exact (sub.map meaning).nodup

/-- A one, a truth value and a string are three elements, and an object may be exchanged for one
with its members turned round and a double for the integer. -/
theorem uniqueness_pairwise_mixed :
    let point : Value := .object .mutable [("x", .ofInt 1), ("y", .null)]
    let turned : Value := .object .frozen [("y", .null), ("x", .number (.double ⟨false, 1023, 0⟩))]
    let xs : List Value := [.ofInt 1, .bool true, point, .string "1"]
    let passes := PassesUnique {} (.ofString "$") .mutable
    (∀ x ∈ xs, x.Json) ∧ point.same turned = true ∧ passes xs ∧
    passes [.string "1", point, .bool true, .ofInt 1] ∧
    passes [.ofInt 1, .bool true, turned, .string "1"] ∧ passes [.bool true, point] := by
  intro point turned xs passes
  have hpoint : point.Json := .object (by decide) (by simpa using ⟨.number rfl, .null⟩)
  have json : ∀ x ∈ xs, x.Json := by simpa [xs] using ⟨.number rfl, .bool _, hpoint, .string _⟩
  have equal : point.same turned = true := by decide +kernel
  obtain ⟨-, -, reversed, exchanged, left⟩ :=
    uniqueness_pairwise {} (.ofString "$") .mutable xs json
  have whole : passes xs := by
    have scan : distinct [] xs = true := by decide +kernel
    simp [passes, PassesUnique, checkUniqueItems, scan]
  have sub : [Value.bool true, point].Sublist xs :=
    .cons _ (.cons_cons _ (.cons_cons _ (List.nil_sublist _)))
  exact ⟨json, equal, whole, reversed.mpr whole,
    (exchanged 2 (by decide) turned equal).mpr whole, left _ sub whole⟩

end Rules

end Conform
