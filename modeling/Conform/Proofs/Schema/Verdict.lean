import Conform.Proofs.Schema.Clauses

/-! Verdicts mean what schemas say. A compiled schema finds nothing in a value exactly where the
value satisfies the raw schema, whatever the early exits and the frames of the run. -/
namespace Conform.Schema

open Rules Compile

variable {g : Setting} {s : Subject}

section Scopes

variable {mode : Mode} {ms : List (String × Value)} {xs : List Member}

/-- The names that a parameter holds are those of the raw value's members. -/
theorem names?_eq {k : Keyword} {v : Value} {p : Param}
    (naming : k = .properties ∨ k = .patternProperties)
    (h : ParamOf (Compiles Rule.builtins mode) (some k) v p) :
    p.names? = some ((sense g v).members.map (·.1)) := by
  cases h with
  | properties compile | patternProperties compile =>
    rw [members_sense, List.map_map, Param.names?]
    exact congrArg some (map_eq_map_of_forall₂ compile fun m n h => h.1).symm
  | _ => simp at naming

theorem conditionNode?_cons_of_ne {e : Entry} {es : List Entry}
    (other : e.keyword ≠ Clause.condition.name) : conditionNode? (e :: es) = conditionNode? es := by
  obtain ⟨key, p, rule⟩ := e
  have unlike : key ≠ Clause.condition.name := other
  cases p <;> cases rule <;> simp [conditionNode?, unlike]

/-- The condition of a node is the schema that stands under its key. -/
theorem rel_conditionNode? (compile : List.Forall₂ (MemberOf Rule.builtins mode) ms xs) :
    Option.Rel (Compiles Rule.builtins mode) (Listing.get? Clause.condition.name ms)
      (conditionNode? (entriesOf xs)) := by
  induction compile with
  | nil => exact .none
  | @cons m x ms xs member _ ih =>
    obtain ⟨key, v⟩ := m
    cases x with
    | note n w =>
      cases member with
      | note _ note =>
        have other : key ≠ Clause.condition.name := by
          rintro rfl
          exact (Keyword.clause .condition).name_not_descriptive note
        simpa [Listing.get?, other, entriesOf] using ih
    | entry e =>
      have keyword := member.keptAs.1
      by_cases same : key = Clause.condition.name
      · rcases member.builtins with ⟨k, p, hk, rfl, compiles⟩ | ⟨unknown, -, -⟩
        · obtain rfl : k = .clause .condition := Keyword.name_injective (hk.trans same)
          cases compiles with
          | clause compiles =>
            simpa [Listing.get?, same, entriesOf, conditionNode?] using Option.Rel.some compiles
        · rw [same] at unknown
          cases unknown
      · have other : e.keyword ≠ Clause.condition.name := keyword ▸ same
        simpa [Listing.get?, same, entriesOf, conditionNode?_cons_of_ne other] using ih

end Scopes

end Conform.Schema
