import Conform.Proofs.Rules.Reordered
import Conform.Proofs.Schema.Acceptance
import Conform.Proofs.Schema.Verdict

/-! Schemas with their keys in another order. They compile alike, and a run that does not stop finds
the same in another order. -/
namespace Conform

namespace Schema

open Compile Rules

section

variable (R : Value → Value → Prop)

/-- A member of a schema with the schemas under it replaced, where its keyword takes any order. -/
inductive Under : String × Value → String × Value → Prop
  | same (m : String × Value) : Under m m
  | named {k : Keyword} (naming : k = .properties ∨ k = .patternProperties) {a : Access}
    {ms ns : List (String × Value)} (schemas : Rearranged (Named R) ms ns) :
    Under (k.name, .object a ms) (k.name, .object a ns)
  | items {a : Access} {ms : List (String × Value)} {w : Value} (schema : R (.object a ms) w) :
    Under (Keyword.items.name, .object a ms) (Keyword.items.name, w)
  | elements {a : Access} {xs ys : List Value} (schemas : List.Forall₂ R xs ys) :
    Under (Keyword.items.name, .array a xs) (Keyword.items.name, .array a ys)

end

/-- A schema with its keys in another order, and with the schemas that are reached through
properties, pattern properties and items reordered in their turn. -/
inductive Reordered : Value → Value → Prop
  | intro {a : Access} {ms ns : List (String × Value)} (distinct : (ms.map (·.1)).Nodup)
    (members : Rearranged (Under Reordered) ms ns) : Reordered (.object a ms) (.object a ns)

section

variable {R S : Value → Value → Prop} {m m' : String × Value}

theorem Under.fst_eq (h : Under R m m') : m.1 = m'.1 := by
  cases h <;> rfl

theorem Under.imp_of_mem (h : Under R m m')
    (step : ∀ k : Keyword, k.name = m.1 → ∀ v ∈ subschemas k m.2, ∀ w, R v w → S v w) :
    Under S m m' := by
  cases h with
  | same => exact .same m
  | @named k naming a ms ns schemas =>
    have inside : ∀ n ∈ ms, n.2 ∈ subschemas k (.object a ms) := by
      intro n hn
      rcases naming with rfl | rfl <;> exact List.mem_map_of_mem hn
    refine .named naming (schemas.imp_of_mem ?_)
    rintro _ hn _ - ⟨name, related⟩
    exact .intro name (step k rfl _ (inside _ hn) _ related)
  | items schema => exact .items (step .items rfl _ (.head _) _ schema)
  | elements schemas =>
    exact .elements (forall₂_imp_of_mem schemas fun v hv w _ => step .items rfl v hv w)

/-- Only where schemas are rearranged does a member change. -/
theorem Under.eq_of_fixed {k : Keyword} {v w : Value}
    (fixed : k ≠ .properties ∧ k ≠ .patternProperties ∧ k ≠ .items)
    (h : Under R (k.name, v) (k.name, w)) : v = w := by
  generalize hm : (k.name, v) = m, hm' : (k.name, w) = m' at h
  cases h with
  | same => exact (Prod.mk.inj (hm.trans hm'.symm)).2
  | named naming =>
    obtain rfl := Keyword.name_injective (Prod.mk.inj hm).1
    exact absurd naming (by simp [fixed])
  | items | elements =>
    obtain rfl := Keyword.name_injective (Prod.mk.inj hm).1
    exact absurd rfl fixed.2.2

/-- The names under a key that declares some are at most rearranged. -/
theorem Under.names_perm {k : Keyword} (naming : k = .properties ∨ k = .patternProperties)
    {v w : Value} (h : Under R (k.name, v) (k.name, w)) :
    ((v.members?.getD []).map (·.1)).Perm ((w.members?.getD []).map (·.1)) := by
  generalize hm : (k.name, v) = m, hm' : (k.name, w) = m' at h
  cases h with
  | same =>
    obtain rfl := (Prod.mk.inj (hm.trans hm'.symm)).2
    exact .refl _
  | named _ schemas =>
    obtain ⟨-, rfl⟩ := Prod.mk.inj hm
    obtain ⟨-, rfl⟩ := Prod.mk.inj hm'
    exact schemas.names_perm
  | items | elements =>
    obtain rfl := Keyword.name_injective (Prod.mk.inj hm).1
    simp at naming

end

/-- Members of one kind: the same note, or entries with their nodes rearranged. -/
inductive MemberReordered (R : Node → Node → Prop) : Member → Member → Prop
  | note (key : String) (v : Value) : MemberReordered R (.note key v) (.note key v)
  | entry {e f : Entry} (entries : e.Reordered R f) : MemberReordered R (.entry e) (.entry f)

variable {mode : Mode}

/-- The second schema compiles where the first does, to a tree that finds the same in some order. -/
def CompilesAlike (mode : Mode) (raw raw' : Value) : Prop :=
  ∀ n, Compiles Rule.builtins mode raw n → ∃ n', Compiles Rule.builtins mode raw' n' ∧ Shuffles n n'

theorem exists_named {ms : List (String × Value)} : ∀ m ∈ ms, ∀ (m' : String × Value)
    (n : String × Node), Named (CompilesAlike mode) m m' →
      m.1 = n.1 ∧ Compiles Rule.builtins mode m.2 n.2 →
        ∃ n' : String × Node, (m'.1 = n'.1 ∧ Compiles Rule.builtins mode m'.2 n'.2) ∧
          Named Shuffles n n' := by
  rintro _ - _ ⟨_, n⟩ ⟨name, alike⟩ ⟨rfl, compiles⟩
  obtain ⟨n', hn', shuffles⟩ := alike n compiles
  exact ⟨(_, n'), ⟨rfl, hn'⟩, .intro _ shuffles⟩

/-- Member by member, compilation goes along with a reordering below. -/
theorem exists_memberOf {m m' : String × Value} {x : Member} (h : Under (CompilesAlike mode) m m')
    (member : MemberOf Rule.builtins mode m x) :
    ∃ y, MemberOf Rule.builtins mode m' y ∧ MemberReordered Shuffles x y := by
  cases h with
  | same =>
    refine ⟨x, member, ?_⟩
    cases x with
    | note key v => exact .note key v
    | entry e => exact .entry (.same e)
  | named naming schemas =>
    rcases naming with rfl | rfl
    · obtain ⟨_, rfl, hp⟩ := member.of_name
      cases hp with
      | properties compile =>
        obtain ⟨ws, mades, sames⟩ := schemas.exists_forall₂ compile exists_named
        exact ⟨_, .of_keyword (.properties mades), .entry (.properties sames)⟩
    · obtain ⟨_, rfl, hp⟩ := member.of_name
      cases hp with
      | @patternProperties _ _ ns compile =>
        have reads : ∀ n ∈ ns, ∃ p, Pattern.compile n.1 = .ok p := fun n hn =>
          have ⟨_, _, _, _, read⟩ := exists_left_of_forall₂ compile hn
          read
        have plain := compile.imp fun m n h => And.intro h.1 h.2.1
        obtain ⟨ws, mades, sames⟩ := schemas.exists_forall₂ plain exists_named
        have again := reads_of_rearranged sames reads
        have made := forall₂_imp_of_mem mades fun m _ n hn h =>
          And.intro h.1 (And.intro h.2 (again n hn))
        exact ⟨_, .of_keyword (.patternProperties made), .entry (.patternProperties sames reads)⟩
  | items schema =>
    obtain ⟨_, rfl, hp⟩ := member.of_name
    cases hp with
    | items compiles =>
      obtain ⟨n, hn, shuffles⟩ := schema _ compiles
      obtain ⟨a, ms, rfl⟩ := hn.eq_object
      exact ⟨_, .of_keyword (.items hn), .entry (.items shuffles)⟩
  | elements schemas =>
    obtain ⟨_, rfl, hp⟩ := member.of_name
    cases hp with
    | elements compile =>
      obtain ⟨ws, mades, sames⟩ := exists_square_of_forall₂ schemas compile
        fun v _ w n alike compiles => alike n compiles
      exact ⟨_, .of_keyword (.elements mades), .entry (.elements sames)⟩

theorem rearranged_entriesOf {R : Node → Node → Prop} {xs ys : List Member}
    (h : Rearranged (MemberReordered R) xs ys) :
    Rearranged (Entry.Reordered R) (entriesOf xs) (entriesOf ys) := by
  refine h.filterMap ?_
  rintro _ _ (⟨key, v⟩ | entries)
  · exact .none
  · exact .some entries

/-- Patterns are read from names, one by one. -/
theorem patterns_perm {names names' : List String} {ps ps' : List Pattern} (h : names.Perm names')
    (reads : List.Forall₂ (fun name p => Pattern.compile name = .ok p) names ps)
    (reads' : List.Forall₂ (fun name p => Pattern.compile name = .ok p) names' ps') :
    ps.Perm ps' := by
  obtain ⟨qs, again, perm⟩ := List.perm_comp_forall₂ h.symm reads
  obtain rfl : qs = ps' := by
    clear perm reads h
    induction again generalizing ps' with
    | nil =>
      cases reads'
      rfl
    | cons first _ ih =>
      cases reads' with
      | cons other rest =>
        rw [ih rest, Except.ok.inj (first.symm.trans other)]
  exact perm.symm

section

variable {a : Access} {ms ns : List (String × Value)} {xs ys : List Member}
  {R : Value → Value → Prop} (distinct : (ms.map (·.1)).Nodup) (h : Rearranged (Under R) ms ns)
  (compile : List.Forall₂ (MemberOf Rule.builtins mode) ms xs)
  (compile' : List.Forall₂ (MemberOf Rule.builtins mode) ns ys)
include distinct h compile compile'

theorem names_perm {k : Keyword} (naming : k = .properties ∨ k = .patternProperties) :
    (((Node.paramIn? k.name (entriesOf xs)).bind Param.names?).getD []).Perm
      (((Node.paramIn? k.name (entriesOf ys)).bind Param.names?).getD []) := by
  rw [names_eq_of_members compile naming, names_eq_of_members compile' naming]
  have lookup := h.rel_get? distinct (fun _ _ => Under.fst_eq) k.name
  generalize Listing.get? k.name ms = v, Listing.get? k.name ns = w at lookup
  cases lookup with
  | none => exact .refl _
  | some under => exact under.names_perm naming

/-- The condition of a node stays what it is. -/
theorem conditionNode?_eq : conditionNode? (entriesOf xs) = conditionNode? (entriesOf ys) := by
  have lookup := h.rel_get? distinct (fun _ _ => Under.fst_eq) Clause.condition.name
  have first := rel_conditionNode? compile
  have second := rel_conditionNode? compile'
  generalize Listing.get? Clause.condition.name ms = v, Listing.get? Clause.condition.name ns = w,
    conditionNode? (entriesOf xs) = c, conditionNode? (entriesOf ys) = d at lookup first second
  cases lookup with
  | none =>
    cases first
    cases second
    rfl
  | some under =>
    obtain rfl := Under.eq_of_fixed (k := .clause .condition) (by simp) under
    cases first with
    | some compiles =>
      cases second with
      | some again => exact congrArg some (Except.ok.inj (compiles.symm.trans again))

end

/-- Reordering a schema reorders what is found with it. -/
theorem compilesAlike_of_reordered {raw raw' : Value} (h : Reordered raw raw') :
    CompilesAlike mode raw raw' := by
  induction raw using Schema.induction generalizing raw' with
  | other v other =>
    cases h
    cases other
  | object a ms below =>
    intro n hn
    cases h with
    | @intro _ _ ns distinct members =>
      have alike : Rearranged (Under (CompilesAlike mode)) ms ns := by
        refine members.imp_of_mem fun m hm m' _ under => under.imp_of_mem ?_
        intro k key v inner w reordered
        obtain ⟨_, v'⟩ := m
        obtain rfl : k.name = _ := key
        exact below k v' hm v inner reordered
      obtain ⟨_, _, xs, ps, same, compile, reads, rfl⟩ := compiles_iff.mp hn
      cases same
      obtain ⟨ys, compile', rearranged⟩ := alike.exists_forall₂ compile
        fun m _ m' x under member => exists_memberOf under member
      obtain ⟨qs, reads'⟩ := exists_forall₂ fun name hname =>
        exists_of_mem_namePatterns compile' hname
      refine ⟨.mk mode (entriesOf ys) qs (notesOf ys),
        compiles_iff.mpr ⟨a, ns, ys, qs, rfl, compile', reads', rfl⟩, ?_⟩
      refine shuffles_of_rearranged (rearranged_entriesOf rearranged) ?_
        (names_perm distinct alike compile compile' (.inl rfl))
        (patterns_perm (names_perm distinct alike compile compile' (.inr rfl)) reads reads')
        (conditionNode?_eq distinct alike compile compile')
      intro e he
      rcases hn.builtins_of_mem_entries he with unruled | ⟨k, v, p, rfl, -⟩
      · exact .inl unruled
      · exact .inr ⟨k, rfl⟩

/-- The order of keys is the order of findings and nothing else. A reordered schema compiles where
the schema does, and a run that does not stop finds the same with both, in some order. -/
theorem evaluate_reordered {raw raw' : Value} {n : Node}
    (compiled : (compileSchema Rule.builtins mode raw).result = .ok n)
    (reordered : Reordered raw raw') :
    ∃ n', (compileSchema Rule.builtins mode raw').result = .ok n' ∧
      ∀ s : Subject, s.frame.stopAtFirst = false →
        (∀ found, (evaluate s n).result = .ok found →
          ∃ found', (evaluate s n').result = .ok found' ∧ found.Perm found') ∧
        (s.frame.Answers → ∃ found, (evaluate s n).result = .ok found) := by
  obtain ⟨n', hn', shuffles⟩ :=
    compilesAlike_of_reordered reordered n (result_compileSchema_eq_ok_iff.mp compiled)
  refine ⟨n', result_compileSchema_eq_ok_iff.mpr hn', fun s exhaustive => ⟨?_, ?_⟩⟩
  · intro found hf
    have shuffle := shuffles s exhaustive
    rw [hf] at shuffle
    generalize (evaluate s n').result = y at shuffle
    cases shuffle with
    | found perm => exact ⟨_, rfl, perm⟩
  · intro answers
    obtain ⟨found, hf, -⟩ := evaluate_fair compiled answers
    exact ⟨found, hf⟩

/-- A closed object, and the same with its keys and its properties turned round. -/
def tidySchema : Value :=
  .object .mutable [("properties", .object .mutable
      [("a", .object .mutable [("type", .string "integer")]),
      ("b", .object .mutable [("type", .string "string")])]),
    ("additionalProperties", .bool false)]

def turnedSchema : Value :=
  .object .mutable [("additionalProperties", .bool false),
    ("properties", .object .mutable
      [("b", .object .mutable [("type", .string "string")]),
      ("a", .object .mutable [("type", .string "integer")])])]

theorem reordered_turnedSchema : Reordered tidySchema turnedSchema := by
  have unchanged : ∀ name, Reordered (.object .mutable [("type", .string name)])
      (.object .mutable [("type", .string name)]) := fun name =>
    .intro (by simp) (.intro (.cons (.same _) .nil) (.refl _))
  have turned : Rearranged (Named Reordered)
      [("a", .object .mutable [("type", .string "integer")]),
        ("b", .object .mutable [("type", .string "string")])]
      [("b", .object .mutable [("type", .string "string")]),
        ("a", .object .mutable [("type", .string "integer")])] :=
    .intro (.cons (.intro _ (unchanged _)) (.cons (.intro _ (unchanged _)) .nil)) (.swap _ _ _)
  refine .intro (by decide) (.intro (.cons ?_ (.cons (.same _) .nil)) (.swap _ _ _))
  exact .named (k := .properties) (.inl rfl) turned

/-- The member that is not declared is found last with the one and first with the other. -/
theorem evaluate_reordered_turnedSchema :
    let s : Subject := ⟨{}, .object .mutable [("c", .null), ("a", .null)], .ofString "$"⟩
    let mistyped : Finding := ⟨s.path.child (.member "a"), .mistyped "null" "integer", "type", .null,
      some "integer"⟩
    let unknown : Finding := ⟨s.path.child (.member "c"), .unknownField "c", "additionalProperties",
      .null, some "c"⟩
    Reordered tidySchema turnedSchema ∧ ∃ n n',
      (compileSchema Rule.builtins .strict tidySchema).result = .ok n ∧
      (compileSchema Rule.builtins .strict turnedSchema).result = .ok n' ∧
      (evaluate s n).result = .ok [mistyped, unknown] ∧
      (evaluate s n').result = .ok [unknown, mistyped] ∧
      [mistyped, unknown].Perm [unknown, mistyped] := by
  intro s mistyped unknown
  have compiled : ∃ n, (compileSchema Rule.builtins .strict tidySchema).result = .ok n ∧
      (evaluate s n).result = .ok [mistyped, unknown] := ⟨_, rfl, rfl⟩
  have turned : ∃ n, (compileSchema Rule.builtins .strict turnedSchema).result = .ok n ∧
      (evaluate s n).result = .ok [unknown, mistyped] := ⟨_, rfl, rfl⟩
  obtain ⟨n, hn, all⟩ := compiled
  obtain ⟨m, hm, others⟩ := turned
  obtain ⟨n', hn', same⟩ := evaluate_reordered hn reordered_turnedSchema
  obtain rfl := Except.ok.inj (hm.symm.trans hn')
  obtain ⟨found, hf, perm⟩ := (same s rfl).1 _ all
  obtain rfl := Except.ok.inj (others.symm.trans hf)
  exact ⟨reordered_turnedSchema, n, m, hn, hm, all, others, perm⟩

end Schema

end Conform
