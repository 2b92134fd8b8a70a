import Mathlib.Data.List.Perm.Basic
import Conform.Listing
import Conform.Proofs.Pointwise

/-! Lists related one to one in some order: what a change inside the elements and a change of their
order make together. -/
namespace Conform

variable {α β γ δ : Type} {R : α → β → Prop} {xs : List α} {ys : List β}

inductive Rearranged (R : α → β → Prop) : List α → List β → Prop
  | nil : Rearranged R [] []
  | cons {x : α} {y : β} {xs : List α} {ys zs : List β} (related : R x y)
    (rest : Rearranged R xs (ys ++ zs)) : Rearranged R (x :: xs) (ys ++ y :: zs)

namespace Rearranged

theorem intro {zs : List β} (related : List.Forall₂ R xs zs) (perm : zs.Perm ys) :
    Rearranged R xs ys := by
  induction related generalizing ys with
  | nil =>
    obtain rfl := perm.symm.eq_nil
    exact .nil
  | cons first _ ih =>
    obtain ⟨before, after, rfl⟩ := List.append_of_mem (perm.mem_iff.mp (.head _))
    exact .cons first (ih (perm.trans List.perm_middle).cons_inv)

theorem exists_perm (h : Rearranged R xs ys) : ∃ zs, List.Forall₂ R xs zs ∧ zs.Perm ys := by
  induction h with
  | nil => exact ⟨[], .nil, .nil⟩
  | cons first _ ih =>
    obtain ⟨zs, related, perm⟩ := ih
    exact ⟨_, .cons first related, (perm.cons _).trans List.perm_middle.symm⟩

theorem perm_of_eq {xs ys : List α} (h : Rearranged Eq xs ys) : xs.Perm ys := by
  obtain ⟨vs, related, perm⟩ := h.exists_perm
  rw [List.forall₂_eq_eq_eq] at related
  exact related ▸ perm

theorem exists_left (h : Rearranged R xs ys) {y : β} (hy : y ∈ ys) : ∃ x ∈ xs, R x y := by
  obtain ⟨vs, related, perm⟩ := h.exists_perm
  exact exists_left_of_forall₂ related (perm.mem_iff.mpr hy)

theorem imp_of_mem {S : α → β → Prop} (h : Rearranged R xs ys)
    (step : ∀ x ∈ xs, ∀ y ∈ ys, R x y → S x y) : Rearranged S xs ys := by
  obtain ⟨vs, related, perm⟩ := h.exists_perm
  exact intro (forall₂_imp_of_mem related fun x hx y hy => step x hx y (perm.mem_iff.mp hy)) perm

theorem length_eq (h : Rearranged R xs ys) : xs.length = ys.length := by
  obtain ⟨vs, related, perm⟩ := h.exists_perm
  exact related.length_eq.trans perm.length_eq

/-- Elements that are dropped are dropped on both sides. -/
theorem filterMap {S : γ → δ → Prop} {f : α → Option γ} {g : β → Option δ} (h : Rearranged R xs ys)
    (step : ∀ x y, R x y → Option.Rel S (f x) (g y)) :
    Rearranged S (xs.filterMap f) (ys.filterMap g) := by
  obtain ⟨vs, related, perm⟩ := h.exists_perm
  refine intro ?_ (perm.filterMap g)
  clear h perm
  induction related with
  | nil => exact .nil
  | @cons x y _ _ first _ ih =>
    have made := step x y first
    rw [List.filterMap_cons, List.filterMap_cons]
    generalize f x = u, g y = v at made
    cases made with
    | none => exact ih
    | some related => exact .cons related ih

theorem map {S : γ → δ → Prop} {f : α → γ} {g : β → δ} (h : Rearranged R xs ys)
    (step : ∀ x y, R x y → S (f x) (g y)) : Rearranged S (xs.map f) (ys.map g) := by
  obtain ⟨vs, related, perm⟩ := h.exists_perm
  refine intro ?_ (perm.map g)
  rw [List.forall₂_map_left_iff, List.forall₂_map_right_iff]
  exact related.imp fun x y h => step x y h

theorem filter {p : α → Bool} {q : β → Bool} (h : Rearranged R xs ys)
    (same : ∀ x y, R x y → p x = q y) : Rearranged R (xs.filter p) (ys.filter q) := by
  rw [← List.filterMap_eq_filter, ← List.filterMap_eq_filter]
  refine h.filterMap fun x y related => ?_
  rw [Option.guard, Option.guard, same x y related]
  cases q y
  · exact .none
  · exact .some related

/-- What the one list is made from element by element, the other can be made from too, and what is
made is rearranged in its turn. -/
theorem exists_forall₂ {B : α → γ → Prop} {C : β → γ → Prop} {S : γ → γ → Prop} {zs : List γ}
    (h : Rearranged R xs ys) (made : List.Forall₂ B xs zs)
    (step : ∀ x ∈ xs, ∀ y z, R x y → B x z → ∃ w, C y w ∧ S z w) :
    ∃ ws, List.Forall₂ C ys ws ∧ Rearranged S zs ws := by
  obtain ⟨vs, related, perm⟩ := h.exists_perm
  obtain ⟨ws, mades, sames⟩ := exists_square_of_forall₂ related made step
  obtain ⟨ws', mades', order⟩ := List.perm_comp_forall₂ perm.symm mades
  exact ⟨ws', mades', intro sames order.symm⟩

theorem names_perm {ms : Listing α} {ns : Listing β} (h : Rearranged (Named R) ms ns) :
    ms.names.Perm ns.names :=
  perm_of_eq (h.map fun _ _ named => (Named.iff.mp named).1)

/-- Where the names on one side are distinct, related members are found under the same names. -/
theorem rel_get? {R : String × α → String × β → Prop} {ms : Listing α} {ns : Listing β}
    (distinct : ms.names.Nodup) (h : Rearranged R ms ns) (named : ∀ m n, R m n → m.1 = n.1)
    (name : String) :
    Option.Rel (fun a b => R (name, a) (name, b)) (ms.get? name) (ns.get? name) := by
  obtain ⟨vs, related, perm⟩ := h.exists_perm
  have names : ms.names = Listing.names vs := map_eq_map_of_forall₂ related named
  rw [← Listing.get?_perm (names ▸ distinct) perm]
  clear h names distinct perm
  induction related with
  | nil => exact .none
  | @cons m n _ _ first _ ih =>
    obtain ⟨key, a⟩ := m
    obtain ⟨_, b⟩ := n
    obtain rfl : key = _ := named _ _ first
    by_cases same : key = name
    · subst same
      simpa [Listing.get?] using first
    · simpa [Listing.get?, same] using ih

end Rearranged

end Conform
