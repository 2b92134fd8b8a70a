import Mathlib.Data.List.Forall2

/-! Lists related element by element: what is known of one side carries over to the other. -/
namespace Conform

/-- Two things under one name. -/
inductive Named {α β : Type} (R : α → β → Prop) : String × α → String × β → Prop
  | intro (name : String) {a : α} {b : β} (related : R a b) : Named R (name, a) (name, b)

theorem Named.iff {α β : Type} {R : α → β → Prop} {a : String × α} {b : String × β} :
    Named R a b ↔ a.1 = b.1 ∧ R a.2 b.2 := by
  constructor
  · rintro ⟨name, related⟩
    exact ⟨rfl, related⟩
  · obtain ⟨name, a⟩ := a
    obtain ⟨_, b⟩ := b
    rintro ⟨rfl, related⟩
    exact .intro name related

variable {α β γ : Type} {R : α → β → Prop} {xs : List α} {ys : List β}

theorem exists_forall₂ (h : ∀ x ∈ xs, ∃ y, R x y) : ∃ ys, List.Forall₂ R xs ys := by
  induction xs with
  | nil => exact ⟨[], .nil⟩
  | cons x xs ih =>
    obtain ⟨y, hy⟩ := h x (.head _)
    obtain ⟨ys, hys⟩ := ih fun x hx => h x (.tail _ hx)
    exact ⟨y :: ys, .cons hy hys⟩

theorem exists_left_of_forall₂ (h : List.Forall₂ R xs ys) {y : β} (hy : y ∈ ys) :
    ∃ x ∈ xs, R x y := by
  induction h with
  | nil => cases hy
  | cons first _ ih =>
    rcases List.mem_cons.mp hy with rfl | hy
    · exact ⟨_, .head _, first⟩
    · obtain ⟨x, hx, hxy⟩ := ih hy
      exact ⟨x, .tail _ hx, hxy⟩

theorem exists_right_of_forall₂ (h : List.Forall₂ R xs ys) {x : α} (hx : x ∈ xs) :
    ∃ y ∈ ys, R x y := exists_left_of_forall₂ h.flip hx

theorem exists_cons_of_forall₂ (filled : xs ≠ []) (h : List.Forall₂ R xs ys) :
    ∃ z zs, ys = z :: zs := by
  refine List.exists_cons_of_ne_nil fun empty => filled ?_
  rw [empty] at h
  exact List.forall₂_nil_right_iff.mp h

/-- Elements may be looked up in their lists while the relation is changed. -/
theorem forall₂_imp_of_mem {S : α → β → Prop} (h : List.Forall₂ R xs ys)
    (step : ∀ x ∈ xs, ∀ y ∈ ys, R x y → S x y) : List.Forall₂ S xs ys := by
  induction h with
  | nil => exact .nil
  | cons first _ ih =>
    exact .cons (step _ (.head _) _ (.head _) first)
      (ih fun x hx y hy => step x (.tail _ hx) y (.tail _ hy))

/-- Relations one after the other: what is in between is looked through. -/
theorem forall₂_trans_of_mem {S : β → γ → Prop} {T : α → γ → Prop} {zs : List γ}
    (h : List.Forall₂ R xs ys) (h' : List.Forall₂ S ys zs)
    (step : ∀ x ∈ xs, ∀ y z, R x y → S y z → T x z) : List.Forall₂ T xs zs := by
  induction h generalizing zs with
  | nil =>
    cases h'
    exact .nil
  | cons first _ ih =>
    cases h' with
    | cons next rest =>
      exact .cons (step _ (.head _) _ _ first next) (ih rest fun x hx => step x (.tail _ hx))

/-- Where each pair of elements has something to go with both, the lists do. -/
theorem exists_square_of_forall₂ {δ : Type} {B : α → γ → Prop} {C : β → δ → Prop}
    {S : γ → δ → Prop} {zs : List γ} (h : List.Forall₂ R xs ys) (made : List.Forall₂ B xs zs)
    (step : ∀ x ∈ xs, ∀ y z, R x y → B x z → ∃ w, C y w ∧ S z w) :
    ∃ ws, List.Forall₂ C ys ws ∧ List.Forall₂ S zs ws := by
  induction h generalizing zs with
  | nil =>
    cases made
    exact ⟨[], .nil, .nil⟩
  | cons first _ ih =>
    cases made with
    | cons hz rest =>
      obtain ⟨w, made, same⟩ := step _ (.head _) _ _ first hz
      obtain ⟨ws, mades, sames⟩ := ih rest fun x hx => step x (.tail _ hx)
      exact ⟨w :: ws, .cons made mades, .cons same sames⟩

theorem map_eq_map_of_forall₂ {f : α → γ} {g : β → γ} (h : List.Forall₂ R xs ys)
    (same : ∀ x y, R x y → f x = g y) : xs.map f = ys.map g := by
  induction h with
  | nil => rfl
  | cons first _ ih => rw [List.map_cons, List.map_cons, same _ _ first, ih]

theorem forall₂_zipIdx_both (h : List.Forall₂ R xs ys) (i : Nat) :
    List.Forall₂ (fun s t => R s.1 t.1 ∧ s.2 = t.2) (xs.zipIdx i) (ys.zipIdx i) := by
  induction h generalizing i with
  | nil => exact .nil
  | cons first _ ih => exact .cons ⟨first, rfl⟩ (ih (i + 1))

theorem forall₂_zip (h : List.Forall₂ R xs ys) (zs : List γ) :
    List.Forall₂ (fun s t => s.1 = t.1 ∧ R s.2 t.2) (zs.zip xs) (zs.zip ys) := by
  induction h generalizing zs with
  | nil => simp
  | cons first _ ih =>
    cases zs with
    | nil => exact .nil
    | cons z zs => exact .cons ⟨rfl, first⟩ (ih zs)

end Conform
