import Conform.Validator.Work

/-! What work comes to: how it ends and the state that it leaves. What it logs is left out, as
nothing that comes later depends on it. -/
namespace Conform.Work

variable {σ ε α β : Type}

def outcome (x : Work σ ε α) (s : σ) : Except ε α × σ := ((x s).1.result, (x s).2)

@[simp] theorem outcome_pure (a : α) (s : σ) : (pure a : Work σ ε α).outcome s = (.ok a, s) := rfl

@[simp] theorem outcome_fail (e : ε) (s : σ) : (fail e : Work σ ε α).outcome s = (.error e, s) :=
  rfl

@[simp] theorem outcome_get_bind (f : σ → Work σ ε α) (s : σ) :
    (get >>= f).outcome s = (f s).outcome s := rfl

theorem outcome_bind (x : Work σ ε α) (f : α → Work σ ε β) (s : σ) :
    (x >>= f).outcome s = match x.outcome s with
      | (.ok a, t) => (f a).outcome t
      | (.error e, t) => (.error e, t) := by
  show ((bind x f s).1.result, (bind x f s).2) = _
  unfold bind outcome
  rcases x s with ⟨⟨_ | a, log⟩, t⟩
  · rfl
  · rfl

theorem outcome_ofExcept_bind (x : Except ε α) (f : α → Work σ ε β) (s : σ) :
    (ofExcept x >>= f).outcome s = match x with
      | .ok a => (f a).outcome s
      | .error e => (.error e, s) := by
  cases x <;> rfl

theorem outcome_bind_of_ok {x : Work σ ε α} {f : α → Work σ ε β} {s t : σ} {a : α}
    (h : x.outcome s = (.ok a, t)) : (x >>= f).outcome s = (f a).outcome t := by
  rw [outcome_bind, h]

theorem outcome_bind_of_error {x : Work σ ε α} {f : α → Work σ ε β} {s t : σ} {e : ε}
    (h : x.outcome s = (.error e, t)) : (x >>= f).outcome s = (.error e, t) := by
  rw [outcome_bind, h]

variable {R : σ → σ → Prop}

/-- Work that leaves a state as good as before where it fails. -/
def Atomic (R : σ → σ → Prop) (w : Work σ ε α) : Prop :=
  ∀ s e, (w.outcome s).1 = .error e → R s (w.outcome s).2

/-- Work that never fails. -/
def Total (w : Work σ ε α) : Prop := ∀ s e, (w.outcome s).1 ≠ .error e

theorem Total.atomic {w : Work σ ε α} (h : Total w) : Atomic R w := fun s e failed =>
  absurd failed (h s e)

theorem total_pure (a : α) : Total (pure a : Work σ ε α) := fun _ _ h => nomatch h

theorem total_set (s : σ) : Total (set s : Work σ ε Unit) := fun _ _ h => nomatch h

theorem total_modify (f : σ → σ) : Total (modify f : Work σ ε Unit) := fun _ _ h => nomatch h

theorem Total.bind {x : Work σ ε α} {f : α → Work σ ε β} (first : Total x)
    (next : ∀ a, Total (f a)) : Total (x >>= f) := by
  intro s e
  have done := first s
  rw [outcome_bind]
  generalize x.outcome s = y at done
  obtain ⟨d | a, t⟩ := y
  · exact absurd rfl (done d)
  · exact next a t e

namespace Atomic

/-- Nothing may fail after what may fail. -/
theorem bind {x : Work σ ε α} {f : α → Work σ ε β} (first : Atomic R x)
    (next : ∀ a, Total (f a)) : Atomic R (x >>= f) := by
  intro s e failed
  have undone := first s
  rw [outcome_bind] at failed ⊢
  generalize x.outcome s = y at failed undone
  obtain ⟨d | a, t⟩ := y
  · exact undone d rfl
  · exact absurd failed (next a t e)

theorem get_bind {f : σ → Work σ ε α} (next : ∀ s, Atomic R (f s)) : Atomic R (get >>= f) :=
  fun s => next s s

variable (same : ∀ s, R s s)
include same

theorem fail (e : ε) : Atomic R (fail e : Work σ ε α) := fun s _ _ => same s

theorem ofExcept_bind {x : Except ε α} {f : α → Work σ ε β} (next : ∀ a, Atomic R (f a)) :
    Atomic R (ofExcept x >>= f) := by
  intro s e failed
  rw [outcome_ofExcept_bind] at failed ⊢
  cases x with
  | ok a => exact next a s e failed
  | error d => exact same s

end Atomic

end Conform.Work
