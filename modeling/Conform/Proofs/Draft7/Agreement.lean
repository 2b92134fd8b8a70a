import Conform.Proofs.Draft7.Clauses
import Conform.Proofs.Schema.Acceptance
import Conform.Proofs.Schema.Verdict
import Conform.Validator.Basic

/-! Agreement with JSON Schema draft-07. Where every keyword about values of one type stands beside
that type, a run and draft-07 say the same of every value: on other values both fail at the type. -/
namespace Conform.Draft7

open Schema

/-- A schema that asks for the type itself wherever a keyword is about values of one type alone,
and has no keyword that draft-07 reads otherwise on any value. -/
def Guarded (raw : Value) : Prop :=
  ∀ a ms, Position raw (.object a ms) → ∀ (k : Keyword) v, (k.name, v) ∈ ms →
    (subjects k ≠ [] → ∃ t ∈ subjects k, (Keyword.type.name, Value.string t.name) ∈ ms) ∧
    k ≠ .multipleOf ∧ k ≠ .format ∧ (k = .dependencies → subschemas k v = [])

variable {g : Setting} {mode : Mode} {raw v : Value} {a : Access} {ms : List (String × Value)}

theorem Guarded.sub {k : Keyword} {sub : Value} (h : Guarded (.object a ms))
    (mem : (k.name, v) ∈ ms) (inner : sub ∈ subschemas k v) : Guarded sub :=
  fun b ns pos => h b ns ((Position.under .root mem inner).trans pos)

/-- A guard at the root and one in each schema below it guard the whole. -/
theorem Guarded.of_members (own : ∀ (k : Keyword) v, (k.name, v) ∈ ms →
      (subjects k ≠ [] → ∃ t ∈ subjects k, (Keyword.type.name, Value.string t.name) ∈ ms) ∧
      k ≠ .multipleOf ∧ k ≠ .format ∧ (k = .dependencies → subschemas k v = []))
    (below : ∀ (k : Keyword) v, (k.name, v) ∈ ms → ∀ sub ∈ subschemas k v, Guarded sub) :
    Guarded (.object a ms) := by
  intro b ns pos k v mem
  rcases pos.eq_or_under with same | ⟨j, w, sub, mem', inner, pos⟩
  · cases same
    exact own k v mem
  · exact below j w mem' sub inner b ns pos k v mem

end Conform.Draft7
