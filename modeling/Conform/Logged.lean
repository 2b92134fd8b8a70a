/-!
Computations that write log lines. The lines survive a failure: what was written before it is kept.
-/
namespace Conform

structure LogLine where
  level : Int
  text : String
  deriving DecidableEq

namespace LogLine

def warning (text : String) : LogLine := ⟨30, text⟩
def error (text : String) : LogLine := ⟨40, text⟩

end LogLine

structure Logged (ε α : Type) where
  result : Except ε α
  log : List LogLine := []

namespace Logged

variable {ε δ α β : Type}

def bind (x : Logged ε α) (f : α → Logged ε β) : Logged ε β :=
  match x.result with
  | .error e => ⟨.error e, x.log⟩
  | .ok a => ⟨(f a).result, x.log ++ (f a).log⟩

instance : Monad (Logged ε) where
  pure a := ⟨.ok a, []⟩
  bind := bind

def map (f : α → β) (x : Logged ε α) : Logged ε β := ⟨x.result.map f, x.log⟩

def fail (e : ε) : Logged ε α := ⟨.error e, []⟩

def ofExcept (r : Except ε α) : Logged ε α := ⟨r, []⟩

def write (line : LogLine) : Logged ε Unit := ⟨.ok (), [line]⟩

def mapError (f : ε → δ) (x : Logged ε α) : Logged δ α := ⟨x.result.mapError f, x.log⟩

/-- Continues after a failure, with what was logged before it. -/
def recover (x : Logged ε α) (f : ε → Logged ε α) : Logged ε α :=
  match x.result with
  | .error e => ⟨(f e).result, x.log ++ (f e).log⟩
  | .ok a => ⟨.ok a, x.log⟩

@[simp] theorem result_pure (a : α) : (pure a : Logged ε α).result = .ok a := rfl

theorem pure_bind (a : α) (f : α → Logged ε β) : (pure a >>= f) = f a := rfl

theorem bind_pure (x : Logged ε α) : (x >>= pure) = x := by
  obtain ⟨result, log⟩ := x
  show Logged.bind _ _ = _
  cases result <;> simp [bind, Pure.pure]

@[simp] theorem result_bind (x : Logged ε α) (f : α → Logged ε β) :
    (x >>= f).result = x.result >>= fun a => (f a).result := by
  show (bind x f).result = _
  cases h : x.result <;> simp [bind, h, Bind.bind, Except.bind]

theorem result_bind_eq_ok_iff {x : Logged ε α} {f : α → Logged ε β} {b : β} :
    (x >>= f).result = .ok b ↔ ∃ a, x.result = .ok a ∧ (f a).result = .ok b := by
  rw [result_bind]
  cases x.result <;> simp [Bind.bind, Except.bind]

@[simp] theorem result_map (f : α → β) (x : Logged ε α) :
    (x.map f).result = x.result.map f := rfl

theorem result_map_eq_ok_iff {f : α → β} {x : Logged ε α} {b : β} :
    (x.map f).result = .ok b ↔ ∃ a, x.result = .ok a ∧ f a = b := by
  rw [result_map]
  cases x.result <;> simp [Except.map]

@[simp] theorem result_fail (e : ε) : (fail e : Logged ε α).result = .error e := rfl

@[simp] theorem result_write (line : LogLine) : (write line : Logged ε Unit).result = .ok () := rfl

@[simp] theorem result_mapError (f : ε → δ) (x : Logged ε α) :
    (x.mapError f).result = x.result.mapError f := rfl

/-- Saying otherwise what failed makes nothing succeed. -/
theorem result_mapError_eq_ok_iff {f : ε → δ} {x : Logged ε α} {a : α} :
    (x.mapError f).result = .ok a ↔ x.result = .ok a := by
  rw [result_mapError]
  constructor
  · intro h
    cases hx : x.result with
    | error e =>
      rw [hx] at h
      cases h
    | ok b =>
      rw [hx] at h
      cases h
      rfl
  · intro h
    rw [h]
    rfl

end Logged

end Conform
