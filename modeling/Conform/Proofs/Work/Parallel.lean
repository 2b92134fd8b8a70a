import Conform.Validator.Work

/-! Work done twice: from related states two pieces of work end alike and leave related states. The
relation is kept by every way of making work out of other work. -/
namespace Conform

variable {σ τ ε α β γ δ : Type}

/-- Outcomes that agree: results that are related, or the same error. -/
inductive Agree (Q : α → β → Prop) : Except ε α → Except ε β → Prop
  | ok {a : α} {b : β} (h : Q a b) : Agree Q (.ok a) (.ok b)
  | error (e : ε) : Agree Q (.error e) (.error e)

namespace Agree

variable {Q : α → β → Prop}

theorem of_eq {x y : Except ε α} (h : x = y) : Agree Eq x y := by
  subst h
  cases x with
  | ok a => exact .ok rfl
  | error e => exact .error e

theorem exists_of_ok {a : α} {y : Except ε β} (h : Agree Q (.ok a) y) :
    ∃ b, y = .ok b ∧ Q a b := by
  cases h with
  | ok h => exact ⟨_, rfl, h⟩

end Agree

namespace Work

theorem get_bind_apply (f : σ → Work σ ε α) (s : σ) : (Work.get >>= f) s = f s s := rfl

/-- Two pieces of work that keep the states of `R` related and give results of `Q`. -/
def Parallel (R : σ → τ → Prop) (Q : α → β → Prop) (x : Work σ ε α) (y : Work τ ε β) : Prop :=
  ∀ s t, R s t → Agree Q (x s).1.result (y t).1.result ∧ R (x s).2 (y t).2

namespace Parallel

variable {R : σ → τ → Prop} {Q : α → β → Prop} {S : γ → δ → Prop}

theorem pure {a : α} {b : β} (h : Q a b) :
    Parallel R Q (Pure.pure a : Work σ ε α) (Pure.pure b : Work τ ε β) :=
  fun _ _ related => ⟨.ok h, related⟩

theorem bind {x : Work σ ε α} {y : Work τ ε β} {f : α → Work σ ε γ} {g : β → Work τ ε δ}
    (first : Parallel R Q x y) (next : ∀ a b, Q a b → Parallel R S (f a) (g b)) :
    Parallel R S (x >>= f) (y >>= g) := by
  intro s t related
  obtain ⟨agree, kept⟩ := first s t related
  show Agree S (Work.bind x f s).1.result (Work.bind y g t).1.result ∧
    R (Work.bind x f s).2 (Work.bind y g t).2
  unfold Work.bind
  rcases hx : x s with ⟨⟨xs, log⟩, s'⟩
  rcases hy : y t with ⟨⟨ys, log'⟩, t'⟩
  simp only [hx, hy] at agree kept
  cases agree with
  | ok h => exact next _ _ h s' t' kept
  | error e => exact ⟨.error e, kept⟩

theorem get : Parallel R R (Work.get : Work σ ε σ) Work.get :=
  fun _ _ related => ⟨.ok related, related⟩

theorem set {s : σ} {t : τ} (h : R s t) :
    Parallel R Eq (Work.set s : Work σ ε Unit) (Work.set t) :=
  fun _ _ _ => ⟨.ok rfl, h⟩

theorem modify {f : σ → σ} {g : τ → τ} (h : ∀ s t, R s t → R (f s) (g t)) :
    Parallel R Eq (Work.modify f : Work σ ε Unit) (Work.modify g) :=
  fun s t related => ⟨.ok rfl, h s t related⟩

theorem fail (e : ε) : Parallel R Q (Work.fail e : Work σ ε α) (Work.fail e) :=
  fun _ _ related => ⟨.error e, related⟩

theorem ofExcept (x : Except ε α) : Parallel R Eq (Work.ofExcept x) (Work.ofExcept x) :=
  fun _ _ related => ⟨.of_eq rfl, related⟩

end Parallel

end Work

end Conform
