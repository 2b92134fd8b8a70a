import Conform.Proofs.Value.Json
import Conform.Value.JsonType

/-! Values that stand for one another. Equality of JSON values is a partial equivalence, and equal
values have equal parts: elements one by one, members under the same names in some order. What is
asked of a value alone gets one answer from both. -/
namespace Conform

namespace Value

/-- Equal values of the kinds that JSON has. -/
structure Interchangeable (x y : Value) : Prop where
  left : x.JsonLike
  right : y.JsonLike
  same : x.same y = true

/-- Two values of one kind with the same content, whose parts are related. -/
inductive Matched (R : Value → Value → Prop) : Value → Value → Prop
  | null : Matched R .null .null
  | bool (b : Bool) : Matched R (.bool b) (.bool b)
  | number {m n : Number} (value : m.value = n.value) : Matched R (.number m) (.number n)
  | string (s : String) : Matched R (.string s) (.string s)
  | array {a b : Access} {xs ys : List Value} (items : List.Forall₂ R xs ys) :
    Matched R (.array a xs) (.array b ys)
  | object {a b : Access} {ms ns : List (String × Value)} (distinct : (Listing.names ms).Nodup)
    (members : Rearranged (Named R) ms ns) : Matched R (.object a ms) (.object b ns)

namespace Interchangeable

variable {x y x' y' : Value}

theorem symm (h : Interchangeable x y) : Interchangeable y x :=
  ⟨h.right, h.left, same_symm h.left h.right h.same⟩

theorem matched (h : Interchangeable x y) : Matched Interchangeable x y := by
  obtain ⟨hx, hy, h⟩ := h
  cases hx with
  | null | bool | string =>
    cases y <;> simp only [Value.same, Bool.false_eq_true, beq_iff_eq] at h
    all_goals
      subst_vars
      constructor
  | number =>
    cases y <;> simp only [Value.same, Bool.false_eq_true] at h
    exact .number (Number.value_eq_of_equal h)
  | array items =>
    cases y <;> simp only [Value.same, Bool.false_eq_true, sameItems_iff] at h
    exact .array (forall₂_imp_of_mem h fun x hx y mem same =>
      ⟨items x hx, hy.of_mem_items mem, same⟩)
  | object distinct members =>
    cases y <;> simp only [Value.same, Bool.false_eq_true, Bool.and_eq_true, beq_iff_eq,
      sameMembers_iff] at h
    refine .object distinct (rearranged_of_found distinct h.1 fun m hm => ?_)
    obtain ⟨w, hw, same⟩ := h.2 m hm
    exact ⟨w, hw, members m hm, hy.of_mem_members (Listing.mem_of_get? hw), same⟩

end Interchangeable

end Value

end Conform
