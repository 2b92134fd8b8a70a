import Conform.Proofs.Schema.Inversion

/-! The built-in vocabulary: keywords and their names determine each other, a keyword is no
descriptive key, and a schema compiled against the built-in rules has each rule in its own place. -/
namespace Conform

namespace Keyword

theorem ofName?_name (k : Keyword) : ofName? k.name = some k := by
  cases k with
  | bound b => cases b <;> rfl
  | limit l => cases l <;> rfl
  | combine c => cases c <;> rfl
  | clause c => cases c <;> rfl
  | _ => rfl

theorem ofName?_eq_some_iff {s : String} {k : Keyword} : ofName? s = some k ↔ k.name = s := by
  constructor
  · intro h
    simpa using List.find?_some h
  · rintro rfl
    exact ofName?_name k

theorem name_injective : Function.Injective name := fun j k h =>
  Option.some.inj ((ofName?_name j).symm.trans ((congrArg ofName? h).trans (ofName?_name k)))

theorem ofName?_referenceKey : ofName? referenceKey = none := rfl

theorem ofName?_of_descriptive {key : String} (h : key ∈ descriptiveKeys) : ofName? key = none := by
  simp only [descriptiveKeys, List.mem_cons, List.not_mem_nil, or_false] at h
  rcases h with rfl | rfl | rfl | rfl | rfl | rfl | rfl <;> rfl

theorem name_ne_referenceKey (k : Keyword) : k.name ≠ referenceKey := fun h => by
  have known := ofName?_eq_some_iff.mpr h
  rw [ofName?_referenceKey] at known
  cases known

theorem name_not_descriptive (k : Keyword) : k.name ∉ descriptiveKeys := fun h => by
  have unknown := ofName?_of_descriptive h
  rw [ofName?_name] at unknown
  cases unknown

end Keyword

/-- The built-in rule of a keyword. -/
def Rule.of (k : Keyword) : Rule := ⟨.builtin k, k.kind⟩

theorem Rule.get?_builtins (key : String) :
    Listing.get? key builtins = (Keyword.ofName? key).map Rule.of := by
  unfold builtins Keyword.ofName?
  induction Keyword.all with
  | nil => rfl
  | cons k ks ih =>
    by_cases h : k.name = key
    · simp [Listing.get?, h, Rule.of]
    · simpa [Listing.get?, h] using ih

/-- Rules with one under the name of every keyword, be it the built-in one or another in its place. -/
def Rule.Complete (rules : Listing Rule) : Prop :=
  ∀ k : Keyword, (Listing.get? k.name rules).isSome

theorem Rule.complete_builtins : Complete builtins := by
  intro k
  rw [get?_builtins, Keyword.ofName?_name]
  rfl

theorem Rule.Complete.put {rules : Listing Rule} (h : Complete rules) (name : String) (r : Rule) :
    Complete (rules.put name r) := by
  intro k
  by_cases same : k.name = name
  · rw [same, Listing.get?_put_self]
    rfl
  · rw [Listing.get?_put_of_ne same]
    exact h k

namespace Compile

variable {mode : Mode} {key : String} {v : Value} {e : Entry}

/-- A member that becomes an entry is a keyword with its own rule, or stays unchecked. -/
theorem MemberOf.builtins (h : MemberOf Rule.builtins mode (key, v) (.entry e)) :
    (∃ k p, k.name = key ∧ e = .mk key p (some (.of k)) ∧
      ParamOf (Compiles Rule.builtins mode) (some k) v p) ∨
    Keyword.ofName? key = none ∧ mode ≠ .strict ∧ e = .mk key (.plain v.freeze) none := by
  cases h with
  | kept known entry unruled lenient =>
    rw [Rule.get?_builtins, Option.map_eq_none_iff] at unruled
    exact .inr ⟨unruled, lenient, rfl⟩
  | ruled known entry ruled compiles =>
    rw [Rule.get?_builtins, Option.map_eq_some_iff] at ruled
    obtain ⟨k, hk, rfl⟩ := ruled
    rw [hk] at compiles
    exact .inl ⟨k, _, Keyword.ofName?_eq_some_iff.mp hk, rfl, compiles⟩

/-- Under the name of a keyword stands what its own rule checks. -/
theorem MemberOf.of_name {k : Keyword} {v : Value} {x : Member}
    (h : MemberOf Rule.builtins mode (k.name, v) x) : ∃ p,
      x = .entry (.mk k.name p (some (.of k))) ∧
        ParamOf (Compiles Rule.builtins mode) (some k) v p := by
  cases x with
  | note key w =>
    cases h with
    | note _ note => exact absurd note k.name_not_descriptive
  | entry e =>
    rcases h.builtins with ⟨j, p, same, rfl, hp⟩ | ⟨unknown, -, -⟩
    · obtain rfl := Keyword.name_injective same
      exact ⟨p, rfl, hp⟩
    · rw [Keyword.ofName?_name] at unknown
      cases unknown

theorem MemberOf.of_keyword {k : Keyword} {p : Param}
    (h : ParamOf (Compiles Rule.builtins mode) (some k) v p) :
    MemberOf Rule.builtins mode (k.name, v) (.entry (.mk k.name p (some (.of k)))) := by
  refine .ruled k.name_ne_referenceKey k.name_not_descriptive ?_ ?_
  · rw [Rule.get?_builtins, Keyword.ofName?_name]
    rfl
  · rwa [Keyword.ofName?_name]

/-- The names that a node looks for are those of whatever object stands under the key. -/
theorem names_eq_of_members {rules : Listing Rule} {ms : List (String × Value)} {xs : List Member}
    (compile : List.Forall₂ (MemberOf rules mode) ms xs) {k : Keyword}
    (naming : k = .properties ∨ k = .patternProperties) :
    ((Node.paramIn? k.name (entriesOf xs)).bind Param.names?).getD [] =
      (((Listing.get? k.name ms).bind Value.members?).getD []).map (·.1) := by
  have lookup := rel_get?_paramIn? compile k.name_not_descriptive
  generalize Listing.get? _ ms = found, Node.paramIn? _ _ = p at lookup
  cases lookup with
  | none => rfl
  | @some v p kept =>
    unfold KeptAs at kept
    split at kept
    · rw [Keyword.ofName?_name] at kept
      cases kept with
      | properties compile | patternProperties compile =>
        have names := map_eq_map_of_forall₂ (f := (·.1)) (g := (·.1)) compile fun _ _ h => h.1
        simp [Param.names?, Value.members?, names]
      | _ => simp at naming
    · subst kept
      cases v <;> simp [Value.freeze, Param.names?, Value.members?]

end Compile

/-- The entries of a node compiled against the built-in rules. -/
theorem Compiles.builtins_of_mem_entries {mode : Mode} {raw : Value} {n : Node}
    (h : Compiles Rule.builtins mode raw n) {e : Entry} (he : e ∈ n.entries) :
    e.rule = none ∨ ∃ k v p, e = .mk k.name p (some (.of k)) ∧
      Compile.ParamOf (Compiles Rule.builtins mode) (some k) v p := by
  obtain ⟨a, ms, ⟨key, v⟩, rfl, -, member⟩ := h.memberOf_of_mem_entries he
  rcases member.builtins with ⟨k, p, rfl, rfl, compiles⟩ | ⟨-, -, rfl⟩
  · exact .inr ⟨k, v, p, rfl, compiles⟩
  · exact .inl rfl

/-- What holds of every built-in rule holds of all rules in a tree compiled against these. -/
theorem Compiles.every_builtin {P : Rule → Prop} (own : ∀ k, P (.of k)) {mode : Mode} {raw : Value}
    {n : Node} (h : Compiles Rule.builtins mode raw n) :
    n.Every fun m => ∀ e ∈ m.entries, ∀ r, e.rule = some r → P r := by
  apply h.every_rule
  intro key r found
  rw [Rule.get?_builtins, Option.map_eq_some_iff] at found
  obtain ⟨k, -, rfl⟩ := found
  exact own k

end Conform
