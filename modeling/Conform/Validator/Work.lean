import Conform.Logged

/-!
Work on a state: it may log and fail, and leaves a state behind either way.
-/
namespace Conform

def Work (σ ε α : Type) : Type := σ → Logged ε α × σ

namespace Work

variable {σ ε α β : Type}

def bind (x : Work σ ε α) (f : α → Work σ ε β) : Work σ ε β := fun s =>
  match x s with
  | (⟨.error e, log⟩, s) => (⟨.error e, log⟩, s)
  | (⟨.ok a, log⟩, s) =>
    let (y, s) := f a s
    (⟨y.result, log ++ y.log⟩, s)

instance : Monad (Work σ ε) where
  pure a := fun s => (pure a, s)
  bind := bind

def get : Work σ ε σ := fun s => (pure s, s)

def set (s : σ) : Work σ ε Unit := fun _ => (pure (), s)

def modify (f : σ → σ) : Work σ ε Unit := fun s => (pure (), f s)

def fail (e : ε) : Work σ ε α := fun s => (.fail e, s)

/-- Work that leaves the state alone. -/
def ofLogged (x : Logged ε α) : Work σ ε α := fun s => (x, s)

def ofExcept (x : Except ε α) : Work σ ε α := ofLogged (.ofExcept x)

end Work

end Conform
