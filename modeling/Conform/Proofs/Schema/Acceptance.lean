import Conform.Proofs.Schema.Grammar
import Conform.Proofs.Schema.Vocabulary

/-! Strict compilation accepts the grammar of schemas and nothing else. What compiles has the shape
that its keyword asks for, and what has it compiles once the schemas in it do. -/
namespace Conform.Schema

variable {mode : Mode}

theorem isObject_of_compiles {rules : Listing Rule} {raw : Value} {n : Node}
    (h : Compiles rules mode raw n) : raw.isObject = true :=
  isObject_iff.mpr h.eq_object

/-- A compiled schema has a rule where its raw form has a keyword. -/
theorem hasRules_iff {a : Access} {ms : List (String × Value)} {n : Node}
    (h : Compiles Rule.builtins mode (.object a ms) n) :
    n.hasRules = true ↔ ∃ m ∈ ms, (Keyword.ofName? m.1).isSome = true := by
  obtain ⟨xs, hxs, entries⟩ := h.exists_members
  simp only [Node.hasRules, entries, List.any_eq_true, Compile.mem_entriesOf]
  constructor
  · rintro ⟨e, he, ruled⟩
    obtain ⟨⟨key, v⟩, hm, member⟩ := exists_left_of_forall₂ hxs he
    rcases member.builtins with ⟨k, p, rfl, rfl, -⟩ | ⟨-, -, rfl⟩
    · exact ⟨_, hm, by rw [Keyword.ofName?_name]; rfl⟩
    · cases ruled
  · rintro ⟨⟨key, v⟩, hm, known⟩
    obtain ⟨k, hk⟩ := Option.isSome_iff_exists.mp known
    obtain rfl := Keyword.ofName?_eq_some_iff.mp hk
    obtain ⟨x, hx, member⟩ := exists_right_of_forall₂ hxs hm
    cases x with
    | note =>
      cases member with
      | note _ note => exact absurd note k.name_not_descriptive
    | entry e =>
      refine ⟨e, hx, ?_⟩
      rw [member.keptAs.2.1, Rule.get?_builtins, Keyword.ofName?_name]
      rfl

section

open Compile

variable {k : Keyword} {v : Value} {p : Param}

/-- What compiles is shaped. -/
theorem shaped_of_paramOf (h : ParamOf (Compiles Rule.builtins mode) (some k) v p) :
    shaped k v = true := by
  cases h with
  | typeName known => exact known
  | typeNames filled known => simp_all [shaped, isTypeName_iff]
  | limit whole natural => simp_all [shaped]
  | pattern reads => exact readable_iff.mpr ⟨_, reads⟩
  | required strings => simpa [shaped, isText_iff] using strings
  | properties compile =>
    simp only [shaped, List.all_eq_true]
    intro m hm
    obtain ⟨n, -, -, hn⟩ := exists_right_of_forall₂ compile hm
    exact isObject_of_compiles hn
  | patternProperties compile =>
    simp only [shaped, List.all_eq_true, Bool.and_eq_true]
    intro m hm
    obtain ⟨n, -, same, hn, reads⟩ := exists_right_of_forall₂ compile hm
    exact ⟨readable_iff.mpr (same ▸ reads), isObject_of_compiles hn⟩
  | elements compile =>
    simp only [shaped, List.all_eq_true]
    intro x hx
    obtain ⟨n, -, hn⟩ := exists_right_of_forall₂ compile hx
    exact isObject_of_compiles hn
  | branches filled compile =>
    simp only [shaped, Bool.and_eq_true, List.all_eq_true]
    refine ⟨by simpa using filled, fun x hx => ?_⟩
    obtain ⟨n, -, hn⟩ := exists_right_of_forall₂ compile hx
    exact isObject_of_compiles hn
  | dependencies compile =>
    simp only [shaped, List.all_eq_true, Bool.or_eq_true]
    rintro ⟨name, w⟩ hm
    obtain ⟨⟨_, d⟩, -, -, hd⟩ := exists_right_of_forall₂ compile hm
    cases hd with
    | names => exact .inr (by simp [Value.items?, isText_iff])
    | node compiles => exact .inl rfl
  | negation _ compiles ruled => simpa [shaped] using (hasRules_iff compiles).mp ruled
  | _ => rfl

/-- The schemas in what compiles do. -/
theorem exists_of_mem_subschemas {C : Value → Node → Prop} (h : ParamOf C (some k) v p)
    {sub : Value} (hs : sub ∈ subschemas k v) : ∃ n, C sub n := by
  cases h with
  | properties compile =>
    obtain ⟨m, hm, rfl⟩ := List.mem_map.mp hs
    obtain ⟨n, -, -, hn⟩ := exists_right_of_forall₂ compile hm
    exact ⟨_, hn⟩
  | patternProperties compile =>
    obtain ⟨m, hm, rfl⟩ := List.mem_map.mp hs
    obtain ⟨n, -, -, hn, -⟩ := exists_right_of_forall₂ compile hm
    exact ⟨_, hn⟩
  | additional compiles | items compiles | negation _ compiles | clause compiles =>
    obtain rfl := List.mem_singleton.mp hs
    exact ⟨_, compiles⟩
  | elements compile | branches _ compile =>
    obtain ⟨n, -, hn⟩ := exists_right_of_forall₂ compile hs
    exact ⟨n, hn⟩
  | dependencies compile =>
    obtain ⟨hs, object⟩ := List.mem_filter.mp hs
    obtain ⟨⟨name, w⟩, hm, rfl⟩ := List.mem_map.mp hs
    obtain ⟨⟨_, d⟩, -, -, hd⟩ := exists_right_of_forall₂ compile hm
    cases hd with
    | names => cases object
    | node compiles => exact ⟨_, compiles⟩
  | _ => cases hs

/-- What is shaped compiles once the schemas in it do. -/
theorem exists_paramOf (h : shaped k v = true)
    (below : ∀ sub ∈ subschemas k v, sub.isObject = true →
      ∃ n, Compiles Rule.builtins mode sub n) :
    ∃ p, ParamOf (Compiles Rule.builtins mode) (some k) v p := by
  cases k with
  | format => exact ⟨_, .format⟩
  | type =>
    cases v
    case string s => exact ⟨_, .typeName h⟩
    case array a xs =>
      simp only [shaped, Bool.and_eq_true, List.all_eq_true, isTypeName_iff] at h
      exact ⟨_, .typeNames (by simpa using h.1) h.2⟩
    all_goals cases h
  | bound b => cases v <;> cases h; exact ⟨_, .bound⟩
  | multipleOf => cases v <;> cases h; exact ⟨_, .multipleOf⟩
  | limit l =>
    obtain ⟨i, whole, natural⟩ : ∃ i, v.toInt? = some i ∧ 0 ≤ i := by
      simpa [shaped, Option.any_eq_true] using h
    exact ⟨_, .limit whole natural⟩
  | pattern =>
    cases v
    case string s =>
      obtain ⟨p, hp⟩ := readable_iff.mp h
      exact ⟨_, .pattern hp⟩
    all_goals cases h
  | uniqueItems => cases v <;> cases h; exact ⟨_, .uniqueItems⟩
  | enum => cases v <;> cases h; exact ⟨_, .enum⟩
  | required =>
    cases v
    case array a xs =>
      simp only [shaped, List.all_eq_true, isText_iff] at h
      exact ⟨_, .required h⟩
    all_goals cases h
  | properties =>
    cases v
    case object a ms =>
      simp only [shaped, List.all_eq_true] at h
      have compile : ∀ m ∈ ms, ∃ n : String × Node,
          m.1 = n.1 ∧ Compiles Rule.builtins mode m.2 n.2 := fun m hm =>
        have ⟨n, hn⟩ := below m.2 (List.mem_map_of_mem hm) (h m hm)
        ⟨(m.1, n), rfl, hn⟩
      obtain ⟨ns, hns⟩ := exists_forall₂ compile
      exact ⟨_, .properties hns⟩
    all_goals cases h
  | patternProperties =>
    cases v
    case object a ms =>
      simp only [shaped, List.all_eq_true, Bool.and_eq_true, readable_iff] at h
      have compile : ∀ m ∈ ms, ∃ n : String × Node, m.1 = n.1 ∧
          Compiles Rule.builtins mode m.2 n.2 ∧ ∃ p, Pattern.compile n.1 = .ok p := fun m hm =>
        have ⟨n, hn⟩ := below m.2 (List.mem_map_of_mem hm) (h m hm).2
        ⟨(m.1, n), rfl, hn, (h m hm).1⟩
      obtain ⟨ns, hns⟩ := exists_forall₂ compile
      exact ⟨_, .patternProperties hns⟩
    all_goals cases h
  | additionalProperties =>
    cases v
    case bool b => exact ⟨_, .closed⟩
    case object a ms =>
      obtain ⟨n, hn⟩ := below _ (.head _) rfl
      exact ⟨_, .additional hn⟩
    all_goals cases h
  | items =>
    cases v
    case array a xs =>
      simp only [shaped, List.all_eq_true] at h
      obtain ⟨ns, hns⟩ := exists_forall₂ fun x hx => below x hx (h x hx)
      exact ⟨_, .elements hns⟩
    case object a ms =>
      obtain ⟨n, hn⟩ := below _ (.head _) rfl
      exact ⟨_, .items hn⟩
    all_goals cases h
  | dependencies =>
    cases v
    case object a ms =>
      simp only [shaped, List.all_eq_true] at h
      have compile : ∀ m ∈ ms, ∃ d : String × Dependency,
          m.1 = d.1 ∧ DependencyOf (Compiles Rule.builtins mode) m.2 d.2 := by
        rintro ⟨name, w⟩ hm
        have hw := h _ hm
        cases w
        case object b ns =>
          have inner : Value.object b ns ∈ subschemas .dependencies (.object a ms) :=
            List.mem_filter.mpr ⟨List.mem_map_of_mem hm, rfl⟩
          obtain ⟨n, hn⟩ := below _ inner rfl
          exact ⟨(name, .node n), rfl, .node hn⟩
        case array b xs =>
          have texts : ∀ x ∈ xs, ∃ s, x = .string s := by
            simpa [Value.isObject, Value.items?, isText_iff] using hw
          obtain ⟨names, hnames⟩ := exists_forall₂ texts
          obtain rfl : xs = names.map .string := by
            rw [← List.forall₂_eq_eq_eq, List.forall₂_map_right_iff]
            exact hnames
          exact ⟨(name, .names names), rfl, .names⟩
        all_goals cases hw
      obtain ⟨ds, hds⟩ := exists_forall₂ compile
      exact ⟨_, .dependencies hds⟩
    all_goals cases h
  | combine c =>
    cases v
    case array a xs =>
      simp only [shaped, Bool.and_eq_true, List.all_eq_true] at h
      obtain ⟨ns, hns⟩ := exists_forall₂ fun x hx => below x hx (h.2 x hx)
      exact ⟨_, .branches (by simpa using h.1) hns⟩
    all_goals cases h
  | negation =>
    cases v
    case object a ms =>
      simp only [shaped, List.any_eq_true] at h
      obtain ⟨n, hn⟩ := below _ (.head _) rfl
      have filled : ms ≠ [] := by
        obtain ⟨m, hm, -⟩ := h
        exact List.ne_nil_of_mem hm
      exact ⟨_, .negation filled hn ((hasRules_iff hn).mpr h)⟩
    all_goals cases h
  | clause c =>
    obtain ⟨a, ms, rfl⟩ := isObject_iff.mp h
    obtain ⟨n, hn⟩ := below _ (.head _) rfl
    exact ⟨_, .clause hn⟩

/-- A pattern that a compiled node looks for has been read. -/
theorem exists_of_mem_namePatterns {ms : List (String × Value)} {xs : List Member}
    (h : List.Forall₂ (MemberOf Rule.builtins mode) ms xs) {name : String}
    (hn : name ∈ namePatterns (entriesOf xs)) : ∃ p, Pattern.compile name = .ok p := by
  have lookup := rel_get?_paramIn? h Keyword.patternProperties.name_not_descriptive
  unfold namePatterns at hn
  cases hp : Node.paramIn? Keyword.patternProperties.name (entriesOf xs) with
  | none => simp [hp] at hn
  | some p =>
    rw [hp] at lookup hn
    generalize Listing.get? Keyword.patternProperties.name ms = found at lookup
    cases lookup with
    | @some v _ kept =>
      have kept : ParamOf (Compiles Rule.builtins mode) (some .patternProperties) v p := kept
      cases kept with
      | patternProperties compile =>
        obtain ⟨e, he, rfl⟩ := List.mem_map.mp hn
        obtain ⟨-, -, -, -, reads⟩ := exists_left_of_forall₂ compile he
        exact reads

/-- A schema whose keywords have compiled parameters compiles as a whole. -/
theorem exists_compiles {a : Access} {ms : List (String × Value)}
    (h : ∀ m ∈ ms, ∃ x, MemberOf Rule.builtins mode m x) :
    ∃ n, Compiles Rule.builtins mode (.object a ms) n := by
  obtain ⟨xs, hxs⟩ := exists_forall₂ h
  obtain ⟨ps, hps⟩ := exists_forall₂ fun name hn => exists_of_mem_namePatterns hxs hn
  exact ⟨_, compiles_iff.mpr ⟨a, ms, xs, ps, rfl, hxs, hps, rfl⟩⟩

end

theorem Grammatical.exists_compiles {raw : Value} (h : Grammatical raw) :
    ∃ n, Compiles Rule.builtins .strict raw n := by
  -- on size and not on the value: the schema under a keyword may be the whole of its value
  induction hs : sizeOf raw using Nat.strongRecOn generalizing raw with
  | _ size ih =>
    obtain ⟨a, ms, rfl⟩ := isObject_iff.mp h.1
    refine Schema.exists_compiles ?_
    rintro ⟨key, v⟩ hm
    obtain ⟨known, note | ⟨k, hk, shape⟩⟩ := h.2 a ms .root key v hm
    · exact ⟨_, .note known note⟩
    · obtain rfl := Keyword.ofName?_eq_some_iff.mp hk
      have below : ∀ sub ∈ subschemas k v, sub.isObject = true →
          ∃ n, Compiles Rule.builtins .strict sub n := by
        intro sub inner object
        refine ih (sizeOf sub) ?_ (h.sub hm inner object) rfl
        rw [← hs]
        exact Nat.lt_of_le_of_lt (sizeOf_le_of_mem_subschemas inner) (sizeOf_member_lt hm)
      obtain ⟨p, hp⟩ := exists_paramOf shape below
      exact ⟨_, .of_keyword hp⟩

/-- A tree asks for a rule only where the keyword stands in the schema. -/
theorem exists_position_of_asks {raw : Value} {n : Node} {k : Keyword}
    (h : Compiles Rule.builtins mode raw n) (asks : n.Asks k) :
    ∃ a ms v, Position raw (.object a ms) ∧ (k.name, v) ∈ ms := by
  induction asks generalizing raw with
  | own mem ruled handler =>
    obtain ⟨a, ms, ⟨key, v⟩, rfl, hm, member⟩ := h.memberOf_of_mem_entries mem
    rcases member.builtins with ⟨j, p, rfl, rfl, -⟩ | ⟨-, -, rfl⟩
    · cases ruled
      obtain rfl : j = k := by simpa [Rule.of] using handler
      exact ⟨a, ms, v, .root, hm⟩
    · cases ruled
  | inside sub _ ih =>
    obtain ⟨e, he, hm⟩ := Node.mem_subnodes.mp sub
    obtain ⟨a, ms, ⟨key, v⟩, rfl, mem, member⟩ := h.memberOf_of_mem_entries he
    rcases member.builtins with ⟨j, p, rfl, rfl, compiles⟩ | ⟨-, -, rfl⟩
    · obtain ⟨sub, inner, compiles⟩ := compiles.exists_subschema hm
      obtain ⟨b, ns, w, pos, found⟩ := ih compiles
      exact ⟨b, ns, w, (Position.under .root mem inner).trans pos, found⟩
    · cases hm

/-- What stands under a keyword that has a rule has compiled with it. -/
theorem exists_paramOf_of_ruled {rules : Listing Rule} {a : Access}
    {ms : List (String × Value)} {n : Node}
    (h : Compiles rules mode (.object a ms) n) {k : Keyword} {v : Value}
    (ruled : (Listing.get? k.name rules).isSome) (mem : (k.name, v) ∈ ms) :
    ∃ p, Compile.ParamOf (Compiles rules mode) (some k) v p := by
  obtain ⟨xs, hxs, -⟩ := h.exists_members
  obtain ⟨x, -, member⟩ := exists_right_of_forall₂ hxs mem
  cases member with
  | note _ note => exact absurd note k.name_not_descriptive
  | kept _ _ unruled => simp [unruled] at ruled
  | ruled _ _ _ compiles =>
    rw [Keyword.ofName?_name] at compiles
    exact ⟨_, compiles⟩

/-- Where the keywords that compile have rules, the schemas inside a schema that compiles do too. -/
theorem exists_compiles_of_ruled {rules : Listing Rule} {raw s : Value}
    (ruled : ∀ {a ms n}, Compiles rules mode (.object a ms) n → ∀ {k v}, (Keyword.name k, v) ∈ ms →
      (Listing.get? k.name rules).isSome)
    (pos : Position raw s) (h : ∃ n, Compiles rules mode raw n) : ∃ n, Compiles rules mode s n := by
  induction pos with
  | root => exact h
  | under _ mem inner ih =>
    obtain ⟨n, hn⟩ := ih
    obtain ⟨p, hp⟩ := exists_paramOf_of_ruled hn (ruled hn mem) mem
    exact exists_of_mem_subschemas hp inner

theorem exists_compiles_of_position {raw s : Value} (pos : Position raw s)
    (h : ∃ n, Compiles Rule.builtins mode raw n) : ∃ n, Compiles Rule.builtins mode s n :=
  exists_compiles_of_ruled (fun _ k _ _ => Rule.complete_builtins k) pos h

/-- Against the built-in rules, strict compilation accepts exactly the grammar of schemas. -/
theorem strict_accepts_iff {raw : Value} :
    (∃ n, (compileSchema Rule.builtins .strict raw).result = .ok n) ↔ Grammatical raw := by
  simp only [result_compileSchema_eq_ok_iff]
  refine ⟨fun ⟨n, h⟩ => ⟨isObject_of_compiles h, fun a ms pos key v hm => ?_⟩,
    Grammatical.exists_compiles⟩
  obtain ⟨m, hm'⟩ := exists_compiles_of_position pos ⟨n, h⟩
  obtain ⟨xs, hxs, -⟩ := hm'.exists_members
  obtain ⟨x, -, member⟩ := exists_right_of_forall₂ hxs hm
  cases member with
  | note known note => exact ⟨known, .inl note⟩
  | kept _ _ _ lenient => exact absurd rfl lenient
  | ruled known _ ruled compiles =>
    rw [Rule.get?_builtins, Option.map_eq_some_iff] at ruled
    obtain ⟨k, hk, -⟩ := ruled
    rw [hk] at compiles
    exact ⟨known, .inr ⟨k, hk, shaped_of_paramOf compiles⟩⟩

end Conform.Schema
