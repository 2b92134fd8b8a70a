import Conform.Proofs.Rules.Bounds
import Conform.Proofs.Rules.Safety
import Conform.Proofs.Schema.Vocabulary

/-! Schemas that measure and do nothing else: bounds on a magnitude and limits on a size. They all
compile, their runs end, and what these find they find at their own place. -/
namespace Conform

/-- The keywords that hold a value against a number. -/
inductive Keyword.Measure : Keyword → Prop
  | bound (b : Bound) : Measure (.bound b)
  | limit (l : Limit) : Measure (.limit l)

/-- Rules with the built-in one under the name of every measure. -/
def Rule.Measuring (rules : Listing Rule) : Prop :=
  ∀ k : Keyword, k.Measure → Listing.get? k.name rules = some (.of k)

/-- What it takes for a value to keep to a measure. -/
def Keyword.Admits (k : Keyword) (i : Int) (v : Value) : Prop :=
  match k with
  | .bound b => ∃ n, v = .number n ∧ b.admits n (.integer i) = true
  | .limit l => ((l.count? v).any fun n => l.met n i) = true
  | _ => True

/-- What stands under a measure is compiled to the number that it is. -/
def Entry.measure (k : Keyword) (i : Nat) : Entry := .mk k.name (.plain (.ofInt i)) (some (.of k))

/-- Members that are some measures, each with its number, in whichever order. -/
structure Measures (ks : List (Keyword × Nat)) (ms : List (String × Value)) : Prop where
  measure : ∀ k ∈ ks, k.1.Measure
  mem_iff (m : String × Value) : m ∈ ms ↔ ∃ k ∈ ks, m = (k.1.name, .ofInt k.2)

namespace Rules

variable {s : Subject} {k : Keyword} {i : Nat}

end Rules

namespace Compile

variable {rules : Listing Rule} {mode : Mode} {k : Keyword} {i : Nat}

theorem paramOf_measure_iff {C : Value → Node → Prop} {p : Param} (measure : k.Measure) :
    ParamOf C (some k) (.ofInt i) p ↔ p = .plain (.ofInt i) := by
  have whole : (Value.ofInt i).toInt? = some (i : Int) := rfl
  constructor
  · intro h
    cases measure with
    | bound b =>
      cases h
      rfl
    | limit l =>
      cases h with
      | limit same =>
        rw [whole] at same
        cases same
        rfl
  · rintro rfl
    cases measure with
    | bound b => exact .bound
    | limit l => exact .limit whole (Int.natCast_nonneg i)

theorem memberOf_measure_iff {x : Member} (measuring : Rule.Measuring rules)
    (measure : k.Measure) :
    MemberOf rules mode (k.name, .ofInt i) x ↔ x = .entry (.measure k i) := by
  have own := measuring k measure
  constructor
  · intro h
    cases h with
    | note known note => exact absurd note k.name_not_descriptive
    | kept known entry unruled lenient =>
      rw [own] at unruled
      cases unruled
    | ruled known entry ruled compiles =>
      rw [own] at ruled
      cases ruled
      rw [Keyword.ofName?_name, paramOf_measure_iff measure] at compiles
      rw [compiles]
      rfl
  · rintro rfl
    refine .ruled k.name_ne_referenceKey k.name_not_descriptive own ?_
    rw [Keyword.ofName?_name]
    exact (paramOf_measure_iff measure).mpr rfl

end Compile

open Compile

variable {rules : Listing Rule} {mode : Mode} {access : Access} {ks : List (Keyword × Nat)}
  {ms : List (String × Value)} {n : Node}

theorem Measures.namePatterns_eq_nil (measures : Measures ks ms) {xs : List Member}
    (compile : List.Forall₂ (MemberOf rules mode) ms xs) : namePatterns (entriesOf xs) = [] := by
  unfold namePatterns
  rw [names_eq_of_members compile (.inr rfl)]
  cases found : Listing.get? Keyword.patternProperties.name ms with
  | none => rfl
  | some v =>
    obtain ⟨k, -, same⟩ := (measures.mem_iff _).mp (Listing.mem_of_get? found)
    obtain rfl : v = .ofInt k.2 := congrArg Prod.snd same
    rfl

theorem Measures.exists_compiles (measuring : Rule.Measuring rules) (measures : Measures ks ms) :
    ∃ n, Compiles rules mode (.object access ms) n := by
  obtain ⟨xs, hxs⟩ : ∃ xs, List.Forall₂ (MemberOf rules mode) ms xs := by
    apply exists_forall₂
    intro m hm
    obtain ⟨k, hk, rfl⟩ := (measures.mem_iff m).mp hm
    exact ⟨_, (memberOf_measure_iff measuring (measures.measure k hk)).mpr rfl⟩
  have patterns := measures.namePatterns_eq_nil hxs
  exact ⟨_, compiles_iff.mpr ⟨access, ms, xs, [], rfl, hxs, patterns ▸ .nil, rfl⟩⟩

end Conform
