import Conform.Proofs.Rules.Interchange
import Conform.Proofs.Schema.Acceptance

/-! Equal values get equal verdicts, from every schema that does not ask for divisibility. -/
namespace Conform.Schema

open Rules

/-- A schema in which a keyword stands nowhere. -/
def Lacks (k : Keyword) (raw : Value) : Prop :=
  ∀ a ms, Position raw (.object a ms) → ∀ v, (k.name, v) ∉ ms

theorem Lacks.of_members {k : Keyword} {a : Access} {ms : List (String × Value)}
    (own : ∀ v, (k.name, v) ∉ ms)
    (below : ∀ (j : Keyword) v, (j.name, v) ∈ ms → ∀ sub ∈ subschemas j v, Lacks k sub) :
    Lacks k (.object a ms) := by
  intro b ns pos
  rcases pos.eq_or_under with same | ⟨j, v, sub, mem, inner, pos⟩
  · cases same
    exact own
  · exact below j v mem sub inner b ns pos

/-- A schema without a keyword compiles to a tree that does not ask for it. -/
theorem Lacks.not_asks {mode : Mode} {raw : Value} {n : Node} {k : Keyword} (h : Lacks k raw)
    (compiles : Compiles Rule.builtins mode raw n) : ¬ n.Asks k := by
  intro asks
  obtain ⟨a, ms, v, pos, mem⟩ := exists_position_of_asks compiles asks
  exact h a ms pos v mem

/-- Divisibility is the exception. One is no multiple of a hundred thousand million, but written as
a double it is near enough to none of it. -/
example : (checkMultipleOf ⟨{}, .ofInt 1, .ofString "$"⟩ (.ofInt 100000000000)).isEmpty = false ∧
    (checkMultipleOf ⟨{}, .number (.double ⟨false, 1023, 0⟩), .ofString "$"⟩
      (.ofInt 100000000000)).isEmpty = true := by decide +kernel

end Conform.Schema
