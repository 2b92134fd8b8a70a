import Conform.Proofs.Json.Counts
import Conform.Proofs.Number.Line
import Conform.Proofs.Rules.Measures
import Conform.Proofs.Session.Strict
import Conform.Proofs.Tag

/-! Tags that ask for what lies between two numbers. Which keywords they become hangs on the kind of
the value, and the rules of these keywords ask for a kind of their own; the two agree, so that every
value is measured in its own way or refused. The memory does not come in between, as the text of such
a schema tells its numbers. -/
namespace Conform

/-- A value between two numbers: in its length, in how many members it has, or in its magnitude. A
value that cannot be measured lies nowhere. -/
def Value.Between (low high : Nat) : Value → Prop
  | .string s => low ≤ s.length ∧ s.length ≤ high
  | .number n => ∃ r : ℚ, n.value = .finite r ∧ (low : ℚ) ≤ r ∧ r ≤ high
  | .object _ ms => low ≤ ms.length ∧ ms.length ≤ high
  | .array _ xs => low ≤ xs.length ∧ xs.length ≤ high
  | _ => False

namespace Tag

variable {v : Value}

/-- What a tag of two numbers is turned into for a value, and whether the value keeps to it. -/
structure Ranges (low high : Nat) (v : Value) (ks : List (Keyword × Nat)) : Prop where
  measure : ∀ k ∈ ks, k.1.Measure
  distinct : (ks.map (·.1)).Nodup
  schema : toSchema [("min", .ofInt low), ("max", .ofInt high)] v =
    Json.counts (ks.map fun k => (k.1.name, k.2))
  admits_iff : (∀ k ∈ ks, k.1.Admits k.2 v) ↔ v.Between low high

theorem Ranges.pair {k l : Keyword} {low high : Nat} (first : k.Measure) (second : l.Measure)
    (apart : k ≠ l) (schema : toSchema [("min", .ofInt low), ("max", .ofInt high)] v =
      Json.counts [(k.name, low), (l.name, high)])
    (admits_iff : k.Admits low v ∧ l.Admits high v ↔ v.Between low high) :
    Ranges low high v [(k, low), (l, high)] where
  measure := by
    simp only [List.forall_mem_cons]
    exact ⟨first, second, nofun⟩
  distinct := by simpa using apart
  schema
  admits_iff := by simpa using admits_iff

end Tag

open Compile

section

variable {a : Source} {rules : Listing Rule} {mode : Mode} {n : Node} {ks : List (String × Nat)}
  {key : String}

end

namespace Validator

end Validator

namespace Session

open Validator

end Session

namespace Validator

variable {shared : Listing Checker} {value : Value} {v : Validator} {ks : List (Keyword × Nat)}

end Validator

end Conform
