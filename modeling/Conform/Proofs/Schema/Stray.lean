import Conform.Proofs.Json.Reading
import Conform.Proofs.Schema.Acceptance

/-! Keys that strict compilation knows nothing of: a schema with one of them anywhere does not
compile, and to write a value as text and read it back brings none into it. -/
namespace Conform

/-- A key without a rule that is no note, at some schema position. -/
def Schema.Stray (rules : Listing Rule) (raw : Value) : Prop :=
  ∃ a ms key v, Position raw (.object a ms) ∧ (key, v) ∈ ms ∧ key ∉ descriptiveKeys ∧
    Listing.get? key rules = none

namespace Json.Echoes

open Schema

variable {v w sub raw : Value} {rules : Listing Rule}

theorem of_hollow {k : Keyword} (hollow : Hollow w) : subschemas k w = [] := by
  obtain ⟨items, members⟩ := hollow
  cases w
  case array => cases items
  case object => cases members
  all_goals cases k <;> rfl

/-- Only an object is echoed by an object, member for member. -/
theorem exists_member {a : Access} {ns : List (String × Value)} (h : Echoes v (.object a ns))
    {name : String} (mem : (name, w) ∈ ns) :
    ∃ b ms u, v = .object b ms ∧ (name, u) ∈ ms ∧ Echoes u w := by
  cases h with
  | hollow hollow => cases hollow.2
  | object among members =>
    obtain ⟨⟨_, u⟩, hk, ⟨_, echoes⟩⟩ := exists_left_of_forall₂ members mem
    exact ⟨_, _, u, rfl, among _ hk, echoes⟩

theorem isObject (h : Echoes v w) (object : w.isObject = true) : v.isObject = true := by
  obtain ⟨a, ns, rfl⟩ := isObject_iff.mp object
  cases h with
  | hollow hollow => cases hollow.2
  | object => rfl

theorem exists_subschema {k : Keyword} (h : Echoes v w) (inner : sub ∈ subschemas k w) :
    ∃ s ∈ subschemas k v, Echoes s sub := by
  have echoes := h
  cases h with
  | hollow hollow =>
    rw [of_hollow hollow] at inner
    cases inner
  | array items =>
    cases k with
    | items | combine => exact exists_left_of_forall₂ items inner
    | _ => cases inner
  | object among members =>
    cases k with
    | properties | patternProperties =>
      obtain ⟨n, hn, rfl⟩ := List.mem_map.mp inner
      obtain ⟨k, hk, related⟩ := exists_left_of_forall₂ members hn
      exact ⟨k.2, List.mem_map_of_mem (among k hk), (Named.iff.mp related).2⟩
    | dependencies =>
      obtain ⟨inner, object⟩ := List.mem_filter.mp inner
      obtain ⟨n, hn, rfl⟩ := List.mem_map.mp inner
      obtain ⟨k, hk, related⟩ := exists_left_of_forall₂ members hn
      have below := (Named.iff.mp related).2
      have mem := List.mem_map_of_mem (f := (·.2)) (among k hk)
      exact ⟨k.2, List.mem_filter.mpr ⟨mem, below.isObject object⟩, below⟩
    | additionalProperties | items | negation | clause =>
      obtain rfl := List.mem_singleton.mp inner
      exact ⟨_, .head _, echoes⟩
    | _ => cases inner

theorem exists_position (h : Echoes v w) (pos : Position w sub) :
    ∃ s, Position v s ∧ Echoes s sub := by
  induction pos with
  | root => exact ⟨v, .root, h⟩
  | under _ mem inner ih =>
    obtain ⟨s, outer, echoes⟩ := ih
    obtain ⟨b, ms, u, rfl, mem', echoes⟩ := echoes.exists_member mem
    obtain ⟨t, inner', echoes⟩ := echoes.exists_subschema inner
    exact ⟨t, .under outer mem' inner', echoes⟩

theorem stray (h : Echoes v w) (stray : Stray rules w) : Stray rules v := by
  obtain ⟨a, ns, key, u, pos, mem, entry, unruled⟩ := stray
  obtain ⟨s, pos', echoes⟩ := h.exists_position pos
  obtain ⟨b, ms, t, rfl, mem', -⟩ := echoes.exists_member mem
  exact ⟨b, ms, key, t, pos', mem', entry, unruled⟩

end Json.Echoes

/-- What compiles strictly has rules for all its keys, notes apart. -/
theorem Compiles.ruled_of_strict {rules : Listing Rule} {a : Access} {ms : List (String × Value)}
    {n : Node} (h : Compiles rules .strict (.object a ms) n) {key : String} {v : Value}
    (mem : (key, v) ∈ ms) (entry : key ∉ descriptiveKeys) : (Listing.get? key rules).isSome := by
  obtain ⟨xs, hxs, -⟩ := h.exists_members
  obtain ⟨x, -, member⟩ := exists_right_of_forall₂ hxs mem
  cases member with
  | note _ note => exact absurd note entry
  | kept _ _ _ lenient => exact absurd rfl lenient
  | ruled _ _ ruled =>
    rw [ruled]
    rfl

/-- A schema with a stray key anywhere is none in strict mode. -/
theorem Schema.Stray.not_compiles {rules : Listing Rule} {raw : Value} (stray : Stray rules raw) :
    ¬∃ n, Compiles rules .strict raw n := by
  intro compiles
  obtain ⟨a, ms, key, v, pos, mem, entry, unruled⟩ := stray
  obtain ⟨n, hn⟩ := exists_compiles_of_ruled
    (fun h k _ mem => h.ruled_of_strict mem k.name_not_descriptive) pos compiles
  have ruled := hn.ruled_of_strict mem entry
  rw [unruled] at ruled
  cases ruled

end Conform
