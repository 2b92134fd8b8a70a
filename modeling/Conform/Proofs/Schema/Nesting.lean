import Conform.Proofs.Schema.Vocabulary

/-! Schemas inside schemas, seen from the inside: the contexts in which a schema can stand, and what
becomes of its failure on the way out. The first failure in a document is the one that is told, and
each schema around it puts its own words before those from further in. -/
namespace Conform.Schema

/-- A place for a schema in the value of a keyword, with what stands around it there. -/
inductive Hole
  | property (a : Access) (before : List (String × Value)) (name : String)
    (after : List (String × Value))
  | patternProperty (a : Access) (before : List (String × Value)) (pattern : String)
    (after : List (String × Value))
  | additional
  | items
  | item (a : Access) (before after : List Value)
  | branch (c : Combinator) (a : Access) (before after : List Value)
  | negation
  | clause (c : Clause)
  | dependency (a : Access) (before : List (String × Value)) (name : String)
    (after : List (String × Value))

namespace Hole

def keyword : Hole → Keyword
  | .property .. => .properties
  | .patternProperty .. => .patternProperties
  | .additional => .additionalProperties
  | .items | .item .. => .items
  | .branch c .. => .combine c
  | .negation => .negation
  | .clause c => .clause c
  | .dependency .. => .dependencies

/-- The value of the keyword once a schema stands in the place. -/
def fill (raw : Value) : Hole → Value
  | .property a before name after | .patternProperty a before name after
  | .dependency a before name after => .object a (before ++ (name, raw) :: after)
  | .item a before after | .branch _ a before after => .array a (before ++ raw :: after)
  | .additional | .items | .negation | .clause _ => raw

def place : Hole → Place
  | .property _ _ name _ => .property name
  | .patternProperty _ _ pattern _ => .patternProperty pattern
  | .additional => .additional
  | .items => .items
  | .item _ before _ => .item before.length
  | .branch c _ before _ => .branch c before.length
  | .negation => .negation
  | .clause c => .clause c
  | .dependency _ _ name _ => .dependency name

/-- What stands before the place under its keyword compiles. -/
def Clear (rules : Listing Rule) (mode : Mode) : Hole → Prop
  | .property _ before _ _ => ∃ ns, (Compile.properties rules mode before).result = .ok ns
  | .patternProperty _ before pattern _ =>
    (∃ ns, (Compile.patternProperties rules mode before).result = .ok ns) ∧
      ∃ p, Pattern.compile pattern = .ok p
  | .item _ before _ => ∃ ns, (Compile.elements rules mode 0 before).result = .ok ns
  | .branch c _ before _ => ∃ ns, (Compile.branches rules mode c 0 before).result = .ok ns
  | .dependency _ before _ _ => ∃ ds, (Compile.dependencies rules mode before).result = .ok ds
  | .additional | .items | .negation | .clause _ => True

/-- Every schema directly under a keyword stands in such a place. -/
theorem exists_fill_eq {k : Keyword} {v sub : Value} (h : sub ∈ subschemas k v) :
    ∃ hole : Hole, hole.keyword = k ∧ hole.fill sub = v := by
  unfold subschemas at h
  split at h
  case h_1 a ms | h_2 a ms =>
    obtain ⟨⟨name, _⟩, mem, rfl⟩ := List.mem_map.mp h
    obtain ⟨before, after, rfl⟩ := List.append_of_mem mem
    first
      | exact ⟨.property a before name after, rfl, rfl⟩
      | exact ⟨.patternProperty a before name after, rfl, rfl⟩
  case h_3 a ms =>
    obtain ⟨⟨name, _⟩, mem, rfl⟩ := List.mem_map.mp (List.mem_filter.mp h).1
    obtain ⟨before, after, rfl⟩ := List.append_of_mem mem
    exact ⟨.dependency a before name after, rfl, rfl⟩
  case h_4 a xs =>
    obtain ⟨before, after, rfl⟩ := List.append_of_mem h
    exact ⟨.item a before after, rfl, rfl⟩
  case h_5 c a xs =>
    obtain ⟨before, after, rfl⟩ := List.append_of_mem h
    exact ⟨.branch c a before after, rfl, rfl⟩
  case h_10 => cases h
  all_goals
    obtain rfl := List.mem_singleton.mp (List.mem_filter.mp h).1
  case h_6 => exact ⟨.additional, rfl, rfl⟩
  case h_7 => exact ⟨.items, rfl, rfl⟩
  case h_8 => exact ⟨.negation, rfl, rfl⟩
  case h_9 c => exact ⟨.clause c, rfl, rfl⟩

theorem mem_subschemas_fill {raw : Value} (object : raw.isObject) (hole : Hole) :
    raw ∈ subschemas hole.keyword (hole.fill raw) := by
  cases hole with
  | property | patternProperty => simp [keyword, fill, subschemas]
  | item | branch => simp [keyword, fill, subschemas]
  | dependency => simp [keyword, fill, subschemas, object]
  | items =>
    obtain ⟨a, ms, rfl⟩ := isObject_iff.mp object
    exact .head _
  | additional | negation | clause => simp [keyword, fill, subschemas, object]

end Hole

/-- A schema with a place for another under one of its keys. -/
structure Level where
  access : Access
  before : List (String × Value)
  hole : Hole
  after : List (String × Value)

/-- The keys before the place compile, and so does what stands before it under its own. -/
structure Level.Clear (rules : Listing Rule) (mode : Mode) (l : Level) : Prop where
  keys : ∃ xs, (Compile.members rules mode l.before).result = .ok xs
  hole : l.hole.Clear rules mode

def Level.fill (l : Level) (raw : Value) : Value :=
  .object l.access (l.before ++ (l.hole.keyword.name, l.hole.fill raw) :: l.after)

/-- A schema inside others, the outermost first. -/
def nest (levels : List Level) (raw : Value) : Value := levels.foldr Level.fill raw

@[simp] theorem nest_nil (raw : Value) : nest [] raw = raw := rfl

@[simp] theorem nest_cons (l : Level) (levels : List Level) (raw : Value) :
    nest (l :: levels) raw = l.fill (nest levels raw) := rfl

theorem isObject_nest {raw : Value} (object : raw.isObject) (levels : List Level) :
    (nest levels raw).isObject := by
  cases levels with
  | nil => exact object
  | cons l levels => rfl

/-- The schema positions of a document are those that levels lead to. -/
theorem position_iff_exists_nest {raw sub : Value} (object : sub.isObject) :
    Position raw sub ↔ ∃ levels, nest levels sub = raw := by
  constructor
  · intro h
    clear object
    induction h with
    | root => exact ⟨[], rfl⟩
    | @under a ms k v sub _ mem inner ih =>
      obtain ⟨levels, rfl⟩ := ih
      obtain ⟨before, after, rfl⟩ := List.append_of_mem mem
      obtain ⟨hole, rfl, rfl⟩ := Hole.exists_fill_eq inner
      refine ⟨levels ++ [⟨a, before, hole, after⟩], ?_⟩
      rw [nest, List.foldr_append]
      rfl
  · rintro ⟨levels, rfl⟩
    induction levels with
    | nil => exact .root
    | cons l levels ih =>
      rw [nest_cons]
      have mem : (l.hole.keyword.name, l.hole.fill (nest levels sub)) ∈
          l.before ++ (l.hole.keyword.name, l.hole.fill (nest levels sub)) :: l.after := by simp
      have inner := l.hole.mem_subschemas_fill (isObject_nest object levels)
      exact (Position.under .root mem inner).trans ih

end Conform.Schema

namespace Conform.Compile

open Schema

variable {rules : Listing Rule} {mode : Mode}

/-- A compiler that takes one element after the other. -/
def OneByOne {α β : Type} (f : Nat → List α → Compiling (List β)) : Prop :=
  ∀ i x, ∃ g : Compiling β, ∀ xs, (f i (x :: xs)).result =
    g.result >>= fun y => (f (i + 1) xs).result.map (y :: ·)

theorem result_bind_of_error {α β : Type} {x : Compiling α} {e : CompileFailure}
    (h : x.result = .error e) (next : α → Compiling β) : (x >>= next).result = .error e := by
  rw [Logged.result_bind, h]
  rfl

theorem result_map_of_error {α β : Type} {x : Compiling α} {e : CompileFailure}
    (h : x.result = .error e) (g : α → β) : (x.map g).result = .error e := by
  rw [Logged.result_map, h]
  rfl

/-- Such a compiler fails as it does from the first element on that fails. -/
theorem OneByOne.result_append {α β : Type} {f : Nat → List α → Compiling (List β)}
    (one : OneByOne f) {i : Nat} {before rest : List α} {e : CompileFailure}
    (clear : ∃ ys, (f i before).result = .ok ys)
    (failed : (f (i + before.length) rest).result = .error e) :
    (f i (before ++ rest)).result = .error e := by
  induction before generalizing i with
  | nil => exact failed
  | cons x before ih =>
    obtain ⟨ys, clear⟩ := clear
    obtain ⟨g, step⟩ := one i x
    rw [step] at clear
    rw [List.cons_append, step]
    cases first : g.result with
    | error d => simp [first, bind, Except.bind] at clear
    | ok y =>
      cases more : (f (i + 1) before).result with
      | error d => simp [first, more, bind, Except.bind, Except.map] at clear
      | ok zs =>
        have later : (f (i + 1 + before.length) rest).result = .error e := by
          rwa [Nat.add_assoc, Nat.add_comm 1]
        simp [bind, Except.bind, ih ⟨zs, more⟩ later, Except.map]

theorem result_step {α β : Type} (x : Compiling α) (g : α → β) (rest : Compiling (List β)) :
    (x >>= fun a => rest >>= fun ys => pure (g a :: ys)).result =
      (x.map g).result >>= fun y => rest.result.map (y :: ·) := by
  simp only [Logged.result_bind, Logged.result_map]
  cases x.result with
  | error => rfl
  | ok => cases rest.result <;> rfl

theorem oneByOne_members : OneByOne fun _ => members rules mode := by
  rintro - ⟨key, v⟩
  exact ⟨_, fun _ => result_step _ id _⟩

theorem oneByOne_properties : OneByOne fun _ => properties rules mode := by
  rintro - ⟨name, v⟩
  cases v
  case object a ms => exact ⟨_, fun _ => result_step _ (name, ·) _⟩
  all_goals exact ⟨refuse _, fun _ => rfl⟩

theorem oneByOne_elements : OneByOne (elements rules mode) := by
  intro i v
  cases v
  case object a ms => exact ⟨_, fun _ => result_step _ id _⟩
  all_goals exact ⟨refuse _, fun _ => rfl⟩

theorem oneByOne_branches (c : Combinator) : OneByOne (branches rules mode c) := by
  intro i v
  cases v
  case object a ms => exact ⟨_, fun _ => result_step _ id _⟩
  all_goals exact ⟨refuse _, fun _ => rfl⟩

theorem oneByOne_dependencies : OneByOne fun _ => dependencies rules mode := by
  rintro - ⟨name, v⟩
  cases v
  case object a ms => exact ⟨_, fun _ => result_step _ (fun n => (name, Dependency.node n)) _⟩
  case array a xs =>
    cases found : strings? xs with
    | some names =>
      refine ⟨pure (name, .names names), fun rest => ?_⟩
      simp only [dependencies, found]
      exact result_step (pure _) id _
    | none =>
      refine ⟨refuse (.dependencyNames name), fun rest => ?_⟩
      simp only [dependencies, found]
      rfl
  all_goals exact ⟨refuse _, fun _ => rfl⟩

theorem oneByOne_patternProperties : OneByOne fun _ => patternProperties rules mode := by
  rintro - ⟨pattern, v⟩
  cases v
  case object a ms =>
    refine ⟨do
      checkPattern (.badPatternProperty pattern) pattern
      (within (.patternProperty pattern) (members rules mode ms >>= assemble mode)).map
        (pattern, ·), fun rest => ?_⟩
    rw [Logged.result_bind, bind_assoc, ← result_step]
    exact Logged.result_bind ..
  all_goals
    refine ⟨do
      checkPattern (.badPatternProperty pattern) pattern
      refuse (.patternPropertyShape pattern), fun rest => ?_⟩
    rw [Logged.result_bind, bind_assoc]
    exact Logged.result_bind ..

section

variable {raw : Value} {f : SchemaFault}

/-- A schema that fails on its own fails at a place, and the place is put before. -/
theorem exists_members_failed (object : raw.isObject)
    (failed : (compileSchema rules mode raw).result = .error (.refused f)) : ∃ a ms,
      raw = .object a ms ∧ ∀ place, (within place (members rules mode ms >>= assemble mode)).result =
        .error (.refused (.within place f)) := by
  obtain ⟨a, ms, rfl⟩ := isObject_iff.mp object
  change (members rules mode ms >>= assemble mode).result = _ at failed
  refine ⟨a, ms, rfl, fun place => ?_⟩
  rw [within, Logged.result_mapError, failed]
  rfl

/-- The value of a keyword fails with the schema in it, where nothing before that fails. -/
theorem result_param_fill {hole : Hole} (clear : hole.Clear rules mode)
    (object : raw.isObject) (failed : (compileSchema rules mode raw).result = .error (.refused f)) :
    (param rules mode (some hole.keyword) (hole.fill raw)).result =
      .error (.refused (.within hole.place f)) := by
  obtain ⟨a, ms, rfl, inner⟩ := exists_members_failed object failed
  cases hole with
  | property b before name after =>
    have first : (properties rules mode ((name, .object a ms) :: after)).result =
        .error (.refused (.within (.property name) f)) := result_bind_of_error (inner _) _
    exact result_map_of_error (oneByOne_properties.result_append (i := 0) clear first) _
  | patternProperty b before pattern after =>
    obtain ⟨clear, reads⟩ := clear
    have first : (patternProperties rules mode ((pattern, .object a ms) :: after)).result =
        .error (.refused (.within (.patternProperty pattern) f)) := by
      rw [patternProperties, Logged.result_bind, (result_checkPattern_eq_ok_iff (u := ())).mpr reads]
      exact result_bind_of_error (inner _) _
    exact result_map_of_error (oneByOne_patternProperties.result_append (i := 0) clear first) _
  | additional | items | clause => exact result_map_of_error (inner _) _
  | item b before after =>
    have first : (elements rules mode (0 + before.length) (.object a ms :: after)).result =
        .error (.refused (.within (.item before.length) f)) := by
      rw [Nat.zero_add]
      exact result_bind_of_error (inner _) _
    exact result_map_of_error (oneByOne_elements.result_append clear first) _
  | branch c b before after =>
    have first : (branches rules mode c (0 + before.length) (.object a ms :: after)).result =
        .error (.refused (.within (.branch c before.length) f)) := by
      rw [Nat.zero_add]
      exact result_bind_of_error (inner _) _
    have all := (oneByOne_branches c).result_append clear first
    -- a list with a place in it is not empty
    obtain ⟨x, xs, filled⟩ := List.exists_cons_of_ne_nil
      (List.append_ne_nil_of_right_ne_nil before (List.cons_ne_nil (Value.object a ms) after))
    rw [filled] at all
    rw [Hole.keyword, Hole.fill, filled]
    exact result_map_of_error all _
  | negation =>
    cases ms with
    | nil => cases failed
    | cons m ms => exact result_bind_of_error (inner _) _
  | dependency b before name after =>
    have first : (dependencies rules mode ((name, .object a ms) :: after)).result =
        .error (.refused (.within (.dependency name) f)) := result_bind_of_error (inner _) _
    exact result_map_of_error (oneByOne_dependencies.result_append (i := 0) clear first) _

/-- A key with a rule fails with its value, whatever comes after it. -/
theorem result_members_cons_of_error (complete : Rule.Complete rules) {k : Keyword} {v : Value}
    {e : CompileFailure} (h : (param rules mode (some k) v).result = .error e)
    (after : List (String × Value)) :
    (members rules mode ((k.name, v) :: after)).result = .error e := by
  obtain ⟨rule, found⟩ := Option.isSome_iff_exists.mp (complete k)
  rw [members]
  apply result_bind_of_error
  simp only [if_neg k.name_ne_referenceKey, if_neg k.name_not_descriptive, found,
    Keyword.ofName?_name]
  exact result_map_of_error h _

theorem result_compileSchema_fill (complete : Rule.Complete rules) {l : Level}
    (clear : l.Clear rules mode) (object : raw.isObject)
    (failed : (compileSchema rules mode raw).result = .error (.refused f)) :
    (compileSchema rules mode (l.fill raw)).result =
      .error (.refused (.within l.hole.place f)) := by
  have value := result_param_fill clear.hole object failed
  have first := result_members_cons_of_error complete value l.after
  exact result_bind_of_error (oneByOne_members.result_append (i := 0) clear.keys first) _

end

end Conform.Compile

namespace Conform.Schema

/-- A failure inside a document is told with the way to it. If a schema fails on its own and nothing
fails before it in the document that it stands in, the document fails as well: for the same cause,
after one lead for each level around it, the outermost first. -/
theorem nested_failure_located {rules : Listing Rule} {mode : Mode}
    (complete : Rule.Complete rules) {levels : List Level}
    (clear : ∀ l ∈ levels, l.Clear rules mode) {raw : Value} (object : raw.isObject)
    {f : SchemaFault} (failed : (compileSchema rules mode raw).result = .error (.refused f)) :
    ∃ g, (compileSchema rules mode (nest levels raw)).result = .error (.refused g) ∧
      g.message = String.join (levels.map fun l => l.hole.place.lead) ++ f.message := by
  induction levels with
  | nil =>
    rw [nest_nil]
    refine ⟨f, failed, ?_⟩
    simp
  | cons l levels ih =>
    rw [List.forall_mem_cons] at clear
    obtain ⟨g, inner, message⟩ := ih clear.2
    rw [nest_cons]
    have outer := Compile.result_compileSchema_fill complete clear.1 (isObject_nest object levels)
      inner
    refine ⟨_, outer, ?_⟩
    rw [List.map_cons, String.join_cons, String.append_assoc, ← message]
    rfl

/-- One level of each kind, with faults after the place on the outermost. -/
def deepLevels : List Level :=
  let level (hole : Hole) : Level := ⟨.mutable, [], hole, []⟩
  let blank : Value := .object .mutable []
  [⟨.mutable, [("type", .string "object")],
      .property .mutable [("z", blank)] "a" [("b", .null)], [(referenceKey, .null)]⟩,
    level (.patternProperty .mutable [] "^b" []), level .additional, level .items,
    level (.item .mutable [blank] []), level (.branch .allOf .mutable [blank, blank] [.null]),
    level (.branch .anyOf .mutable [] []), level (.branch .oneOf .mutable [] []),
    level .negation, level (.clause .condition), level (.clause .consequent),
    level (.clause .alternative),
    level (.dependency .mutable [("p", .list [.string "q"])] "d" [])]

theorem nested_failure_located_deepLevels :
    let raw : Value := .object .mutable [("type", .string "nope")]
    Rule.Complete Rule.builtins ∧ (∀ l ∈ deepLevels, l.Clear Rule.builtins .strict) ∧
    raw.isObject ∧
    (compileSchema Rule.builtins .strict raw).result = .error (.refused (.unknownType "nope")) ∧
    ∃ g, (compileSchema Rule.builtins .strict (nest deepLevels raw)).result =
        .error (.refused g) ∧
      g.message = "failed to compile property 'a': failed to compile pattern property '^b': " ++
        "failed to compile additionalProperties: failed to compile items: " ++
        "failed to compile items[1]: failed to compile allOf[2]: failed to compile anyOf[0]: " ++
        "failed to compile oneOf[0]: failed to compile not: failed to compile if: " ++
        "failed to compile then: failed to compile else: invalid dependency 'd': " ++
        "invalid type value: nope" := by
  intro raw
  have bare : ∀ hole : Hole, hole.Clear Rule.builtins .strict →
      Level.Clear Rule.builtins .strict ⟨.mutable, [], hole, []⟩ := fun _ h => ⟨⟨[], rfl⟩, h⟩
  have clear : ∀ l ∈ deepLevels, l.Clear Rule.builtins .strict := List.forall_iff_forall_mem.mp
    ⟨⟨⟨_, rfl⟩, ⟨_, rfl⟩⟩, bare _ ⟨⟨_, rfl⟩, ⟨_, rfl⟩⟩, bare _ trivial, bare _ trivial,
      bare _ ⟨_, rfl⟩, bare _ ⟨_, rfl⟩, bare _ ⟨_, rfl⟩, bare _ ⟨_, rfl⟩, bare _ trivial,
      bare _ trivial, bare _ trivial, bare _ trivial, bare _ ⟨_, rfl⟩⟩
  have failed : (compileSchema Rule.builtins .strict raw).result =
      .error (.refused (.unknownType "nope")) := rfl
  obtain ⟨g, outer, message⟩ := nested_failure_located Rule.complete_builtins clear rfl failed
  exact ⟨Rule.complete_builtins, clear, rfl, failed, g, outer, message.trans (by decide +kernel)⟩

end Conform.Schema
