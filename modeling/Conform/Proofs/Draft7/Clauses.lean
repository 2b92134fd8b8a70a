import Conform.Proofs.Draft7.Validity
import Conform.Proofs.Schema.Grammar

/-! Keywords under both readings. On a value of the kind that it is about, a keyword asks the same
of a run as of draft-07, provided that the schemas in it do. -/
namespace Conform.Draft7

open Schema

/-- The types that a keyword is about, where it is about numbers, texts, arrays or objects alone. -/
def subjects : Keyword → List JsonType
  | .bound _ => [.number, .integer]
  | .limit .minLength | .limit .maxLength | .pattern => [.string]
  | .limit .minItems | .limit .maxItems | .uniqueItems => [.array]
  | .limit .minProperties | .limit .maxProperties | .required => [.object]
  | _ => []

section Kinds

variable {v : Value}

end Kinds

section

variable {g : Setting} {p v : Value} {ms : List (String × Value)}

attribute [local simp] Schema.clause clause

end

end Conform.Draft7
