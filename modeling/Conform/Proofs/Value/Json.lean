import Mathlib.Data.List.Nodup
import Mathlib.Data.List.Perm.Subperm
import Conform.Proofs.Number.Order
import Conform.Proofs.Rearranged
import Conform.Value.Equal

/-! Equality of JSON values. It looks members up on one side only; on values with distinct member
names it is symmetric all the same. -/
namespace Conform.Value

/-- A value that JSON can write: no value that is no number, and no name twice in an object. -/
inductive Json : Value → Prop
  | null : Json .null
  | bool (b : Bool) : Json (.bool b)
  | string (s : String) : Json (.string s)
  | number {n : Number} (real : n.isNaN = false) : Json (.number n)
  | array {a : Access} {xs : List Value} (items : ∀ x ∈ xs, Json x) : Json (.array a xs)
  | object {a : Access} {ms : List (String × Value)} (distinct : (Listing.names ms).Nodup)
    (members : ∀ m ∈ ms, Json m.2) : Json (.object a ms)

/-- A value of the kinds that JSON has. Its numbers may be any, those that are none among them. -/
inductive JsonLike : Value → Prop
  | null : JsonLike .null
  | bool (b : Bool) : JsonLike (.bool b)
  | string (s : String) : JsonLike (.string s)
  | number (n : Number) : JsonLike (.number n)
  | array {a : Access} {xs : List Value} (items : ∀ x ∈ xs, JsonLike x) : JsonLike (.array a xs)
  | object {a : Access} {ms : List (String × Value)} (distinct : (Listing.names ms).Nodup)
    (members : ∀ m ∈ ms, JsonLike m.2) : JsonLike (.object a ms)

namespace Json

theorem like {v : Value} (h : Json v) : JsonLike v := by
  induction h with
  | null => exact .null
  | bool b => exact .bool b
  | string s => exact .string s
  | number => exact .number _
  | array _ ih => exact .array ih
  | object distinct _ ih => exact .object distinct ih

theorem of_mem_items {a : Access} {xs : List Value} (h : Json (.array a xs)) {x : Value}
    (hx : x ∈ xs) : Json x := by
  cases h with
  | array items => exact items x hx

theorem of_mem_members {a : Access} {ms : List (String × Value)} (h : Json (.object a ms))
    {m : String × Value} (hm : m ∈ ms) : Json m.2 := by
  cases h with
  | object _ members => exact members m hm

theorem of_get? {a : Access} {ms : List (String × Value)} (h : Json (.object a ms))
    {name : String} {v : Value} (hv : Listing.get? name ms = some v) : Json v :=
  h.of_mem_members (Listing.mem_of_get? hv)

end Json

namespace JsonLike

theorem of_mem_items {a : Access} {xs : List Value} (h : JsonLike (.array a xs)) {x : Value}
    (hx : x ∈ xs) : JsonLike x := by
  cases h with
  | array items => exact items x hx

theorem distinct {a : Access} {ms : List (String × Value)} (h : JsonLike (.object a ms)) :
    (Listing.names ms).Nodup := by
  cases h with
  | object distinct _ => exact distinct

theorem of_mem_members {a : Access} {ms : List (String × Value)} (h : JsonLike (.object a ms))
    {m : String × Value} (hm : m ∈ ms) : JsonLike m.2 := by
  cases h with
  | object _ members => exact members m hm

end JsonLike

theorem sameItems_iff {xs ys : List Value} :
    sameItems xs ys = true ↔ List.Forall₂ (fun x y => x.same y = true) xs ys := by
  induction xs generalizing ys with
  | nil => cases ys <;> simp [sameItems]
  | cons x xs ih => cases ys <;> simp [sameItems, ih]

theorem sameMembers_iff {ms ns : List (String × Value)} :
    sameMembers ms ns = true ↔
      ∀ m ∈ ms, ∃ w, Listing.get? m.1 ns = some w ∧ m.2.same w = true := by
  induction ms with
  | nil => simp [sameMembers]
  | cons m ms ih =>
    rw [sameMembers, Bool.and_eq_true, ih, List.forall_mem_cons]
    cases Listing.get? m.1 ns <;> simp

/-- Members that are found under their names on the other side, which has no more, are the members
there in some order. -/
theorem rearranged_of_found {R : Value → Value → Prop} {ms ns : List (String × Value)}
    (distinct : (Listing.names ms).Nodup) (length : ms.length = ns.length)
    (found : ∀ m ∈ ms, ∃ w, Listing.get? m.1 ns = some w ∧ R m.2 w) :
    Rearranged (Named R) ms ns := by
  have partner : ∀ m ∈ ms, ∃ n, n ∈ ns ∧ Named R m n := by
    rintro ⟨name, v⟩ hm
    obtain ⟨w, hw, related⟩ := found _ hm
    exact ⟨(name, w), Listing.mem_of_get? hw, .intro name related⟩
  obtain ⟨vs, related⟩ := exists_forall₂ partner
  have names : ms.map (·.1) = vs.map (·.1) :=
    map_eq_map_of_forall₂ related fun m n h => (Named.iff.mp h.2).1
  have inside : vs ⊆ ns := by
    intro n hn
    obtain ⟨m, -, mem, -⟩ := exists_left_of_forall₂ related hn
    exact mem
  have once : vs.Nodup := List.Nodup.of_map (·.1) (names ▸ distinct)
  have perm : vs.Perm ns := (List.subperm_of_subset once inside).perm_of_length_le
    (Nat.le_of_eq (length.symm.trans related.length_eq))
  exact .intro (related.imp fun _ _ h => h.2) perm

/-- Where each member of one side has its like on the other, which has no more members, each member
there has its like here. -/
theorem members_symm {ms ns : List (String × Value)} (distinct : (Listing.names ms).Nodup)
    (length : ms.length = ns.length)
    (found : ∀ m ∈ ms, ∃ w, Listing.get? m.1 ns = some w ∧ m.2.same w = true)
    (turn : ∀ m ∈ ms, ∀ n ∈ ns, m.2.same n.2 = true → n.2.same m.2 = true) :
    ∀ n ∈ ns, ∃ w, Listing.get? n.1 ms = some w ∧ n.2.same w = true := by
  intro n hn
  have members : Rearranged (Named fun v w => v.same w = true) ms ns :=
    rearranged_of_found distinct length found
  obtain ⟨m, hm, named⟩ := members.exists_left hn
  obtain ⟨name, same⟩ := Named.iff.mp named
  have here : (n.1, m.2) ∈ ms := name ▸ hm
  exact ⟨m.2, Listing.get?_of_mem distinct here, turn m hm n hn same⟩

theorem same_symm {x y : Value} (hx : x.JsonLike) (hy : y.JsonLike) (h : x.same y = true) :
    y.same x = true := by
  induction hx generalizing y with
  | null | bool | string => cases y <;> simp_all [same]
  | number =>
    cases y <;> simp only [same, Bool.false_eq_true] at h
    rw [same, Number.equal_comm]
    exact h
  | @array a xs _ ih =>
    cases y <;> simp only [same, Bool.false_eq_true] at h
    case array b ys =>
      rw [same, sameItems_iff]
      rw [sameItems_iff] at h
      refine List.Forall₂.flip (forall₂_imp_of_mem h fun x hx y mem same => ?_)
      exact ih x hx (hy.of_mem_items mem) same
  | @object a ms distinct _ ih =>
    cases y <;> simp only [same, Bool.false_eq_true] at h
    case object b ns =>
      rw [Bool.and_eq_true, beq_iff_eq, sameMembers_iff] at h
      obtain ⟨length, found⟩ := h
      rw [same, Bool.and_eq_true, beq_iff_eq, sameMembers_iff]
      refine ⟨length.symm, ?_⟩
      exact members_symm distinct length found fun m hm n hn same =>
        ih m hm (hy.of_mem_members hn) same

end Conform.Value
