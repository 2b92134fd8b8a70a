import Conform.Proofs.Draft7.Values
import Conform.Proofs.Schema.Meaning

/-! Validity under JSON Schema draft-07, as a predicate by recursion on the raw schema. A keyword
about values of one type asks nothing of values of any other. -/
namespace Conform.Draft7

/-- What a keyword may read a raw value as: the value itself, a schema, a list of schemas, or
schemas by name. -/
structure Reading where
  raw : Value
  holds : Value → Prop
  elements : List (Value → Prop) := []
  members : List (String × Value × (Value → Prop)) := []

/-- A name that a schema speaks of, in its properties or by a pattern. -/
def Named (siblings : List (String × Reading)) (name : String) : Prop :=
  (∃ p, Listing.get? Keyword.properties.name siblings = some p ∧ ∃ m ∈ p.members, m.1 = name) ∨
  ∃ p, Listing.get? Keyword.patternProperties.name siblings = some p ∧
    ∃ m ∈ p.members, Schema.searches m.1 name = true

/-- What one keyword asks of a value. -/
def clause (siblings : List (String × Reading)) (p : Reading) (v : Value) : Keyword → Prop
  | .type => ∃ name ∈ Schema.texts p.raw, ∃ t : JsonType, t.name = name ∧ HasType v t
  | .enum => ∃ allowed ∈ p.raw.items?.getD [], Equal v allowed
  | .bound b => ∀ n limit, v = .number n → p.raw = .number limit → b.met n limit = true
  | .multipleOf => ∀ n d, v = .number n → p.raw = .number d →
    ∃ r s : Rat, n.value = .finite r ∧ d.value = .finite s ∧ ∃ i : Int, r = i * s
  | .limit l => ∀ n i, l.count? v = some n → p.raw.toInt? = some i → l.met n i = true
  | .pattern => ∀ text pattern, v = .string text → p.raw = .string pattern →
    Schema.searches pattern text = true
  | .uniqueItems => p.raw = .bool true → ∀ a xs, v = .array a xs →
    xs.Pairwise fun x y => ¬ Equal x y
  -- only an annotation
  | .format => True
  | .required => ∀ a ms, v = .object a ms → ∀ name ∈ Schema.texts p.raw, name ∈ Listing.names ms
  | .properties => ∀ a ms, v = .object a ms → ∀ m ∈ p.members, ∀ w,
    Listing.get? m.1 ms = some w → m.2.2 w
  | .patternProperties => ∀ a ms, v = .object a ms → ∀ m ∈ ms, ∀ q ∈ p.members,
    Schema.searches q.1 m.1 = true → q.2.2 m.2
  | .additionalProperties => ∀ a ms, v = .object a ms → ∀ m ∈ ms, ¬ Named siblings m.1 →
    p.holds m.2
  | .items => ∀ a xs, v = .array a xs → match p.raw with
    | .array .. => ∀ x holds, (x, holds) ∈ xs.zip p.elements → holds x
    | _ => ∀ x ∈ xs, p.holds x
  | .dependencies => ∀ a ms, v = .object a ms → ∀ d ∈ p.members, d.1 ∈ Listing.names ms →
    match d.2.1 with
    | .array b xs => ∀ name ∈ Schema.texts (.array b xs), name ∈ Listing.names ms
    -- the whole object, not the member, has to meet the schema
    | _ => d.2.2 v
  | .combine .allOf => ∀ holds ∈ p.elements, holds v
  | .combine .anyOf => ∃ holds ∈ p.elements, holds v
  | .combine .oneOf => ∃! i : Nat, ∃ holds : Value → Prop, p.elements[i]? = some holds ∧ holds v
  | .negation => ¬ p.holds v
  | .clause .condition => True
  | .clause .consequent => ∀ c, Listing.get? Clause.condition.name siblings = some c →
    c.holds v → p.holds v
  | .clause .alternative => ∀ c, Listing.get? Clause.condition.name siblings = some c →
    ¬ c.holds v → p.holds v

/-- A schema holds where all its keywords do; other keys ask nothing. -/
def node (rs : List (String × Reading)) (v : Value) : Prop :=
  ∀ r ∈ rs, ∀ k, Keyword.ofName? r.1 = some k → clause rs r.2 v k

mutual

def reading : Value → Reading
  | .object a ms =>
    let rs := readings ms
    { raw := .object a ms, holds := node rs,
      members := rs.map fun r => (r.1, r.2.raw, r.2.holds) }
  | .array a xs =>
    { raw := .array a xs, holds := fun _ => True, elements := (readingItems xs).map (·.holds) }
  | .bool b => { raw := .bool b, holds := fun _ => b = true }
  | raw => { raw, holds := fun _ => True }

def readingItems : List Value → List Reading
  | [] => []
  | x :: xs => reading x :: readingItems xs

def readings : List (String × Value) → List (String × Reading)
  | [] => []
  | (key, v) :: ms => (key, reading v) :: readings ms

end

end Conform.Draft7
