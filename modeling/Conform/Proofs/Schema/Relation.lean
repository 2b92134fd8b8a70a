import Mathlib.Data.List.Forall2
import Conform.Schema.Compile

/-! Compilation as a relation between raw and compiled parts, free of order, failures and log lines,
and what the compilers of lists and of single values give in its terms. -/
namespace Conform

/-- The compiled form of a raw schema, if it has one. -/
def Compiles (rules : Listing Rule) (mode : Mode) (raw : Value) (n : Node) : Prop :=
  (compileNode rules mode raw).result = .ok n

/-- Only objects are schemas. -/
theorem Compiles.eq_object {rules : Listing Rule} {mode : Mode} {raw : Value} {n : Node}
    (h : Compiles rules mode raw n) : ∃ a ms, raw = .object a ms := by
  cases raw
  case object a ms => exact ⟨a, ms, rfl⟩
  all_goals cases h

namespace Compile

variable {rules : Listing Rule} {mode : Mode}

/-- A schema's names or schema that a member waits for. -/
inductive DependencyOf (C : Value → Node → Prop) : Value → Dependency → Prop
  | names {a : Access} {names : List String} :
    DependencyOf C (.array a (names.map .string)) (.names names)
  | node {a : Access} {ms : List (String × Value)} {n : Node} (compiles : C (.object a ms) n) :
    DependencyOf C (.object a ms) (.node n)

/-- The parameter that a keyword's value turns into, given what its schemas turn into. -/
inductive ParamOf (C : Value → Node → Prop) : Option Keyword → Value → Param → Prop
  | custom {v : Value} : ParamOf C none v (.plain v.freeze)
  | format {v : Value} : ParamOf C (some .format) v (.plain v.freeze)
  | typeName {s : String} (known : (JsonType.ofName? s).isSome) :
    ParamOf C (some .type) (.string s) (.plain (.string s))
  | typeNames {a : Access} {xs : List Value} (filled : xs ≠ [])
    (known : ∀ x ∈ xs, ∃ s, x = .string s ∧ (JsonType.ofName? s).isSome) :
    ParamOf C (some .type) (.array a xs) (.plain (.array .frozen xs))
  | bound {b : Bound} {n : Number} :
    ParamOf C (some (.bound b)) (.number n) (.plain (.number n))
  | multipleOf {n : Number} : ParamOf C (some .multipleOf) (.number n) (.plain (.number n))
  | limit {l : Limit} {v : Value} {i : Int} (whole : v.toInt? = some i) (natural : 0 ≤ i) :
    ParamOf C (some (.limit l)) v (.plain (.ofInt i))
  | pattern {s : String} {p : Pattern} (reads : Pattern.compile s = .ok p) :
    ParamOf C (some .pattern) (.string s) (.plain (.string s))
  | uniqueItems {b : Bool} : ParamOf C (some .uniqueItems) (.bool b) (.plain (.bool b))
  | enum {a : Access} {xs : List Value} :
    ParamOf C (some .enum) (.array a xs) (.plain (.array .frozen (xs.map Value.freeze)))
  | required {a : Access} {xs : List Value} (strings : ∀ x ∈ xs, ∃ s, x = .string s) :
    ParamOf C (some .required) (.array a xs) (.plain (.array .frozen xs))
  | properties {a : Access} {ms : List (String × Value)} {ns : List (String × Node)}
    (compile : List.Forall₂ (fun m n => m.1 = n.1 ∧ C m.2 n.2) ms ns) :
    ParamOf C (some .properties) (.object a ms) (.named ns)
  | patternProperties {a : Access} {ms : List (String × Value)} {ns : List (String × Node)}
    (compile : List.Forall₂
      (fun m n => m.1 = n.1 ∧ C m.2 n.2 ∧ ∃ p, Pattern.compile n.1 = .ok p) ms ns) :
    ParamOf C (some .patternProperties) (.object a ms) (.named ns)
  | closed {b : Bool} : ParamOf C (some .additionalProperties) (.bool b) (.plain (.bool b))
  | additional {a : Access} {ms : List (String × Value)} {n : Node}
    (compiles : C (.object a ms) n) :
    ParamOf C (some .additionalProperties) (.object a ms) (.node n)
  | items {a : Access} {ms : List (String × Value)} {n : Node} (compiles : C (.object a ms) n) :
    ParamOf C (some .items) (.object a ms) (.node n)
  | elements {a : Access} {xs : List Value} {ns : List Node} (compile : List.Forall₂ C xs ns) :
    ParamOf C (some .items) (.array a xs) (.nodes ns)
  | dependencies {a : Access} {ms : List (String × Value)} {ds : List (String × Dependency)}
    (compile : List.Forall₂ (fun m d => m.1 = d.1 ∧ DependencyOf C m.2 d.2) ms ds) :
    ParamOf C (some .dependencies) (.object a ms) (.dependencies ds)
  | branches {c : Combinator} {a : Access} {xs : List Value} {ns : List Node} (filled : xs ≠ [])
    (compile : List.Forall₂ C xs ns) : ParamOf C (some (.combine c)) (.array a xs) (.nodes ns)
  | negation {a : Access} {ms : List (String × Value)} {n : Node} (filled : ms ≠ [])
    (compiles : C (.object a ms) n) (rules : n.hasRules) :
    ParamOf C (some .negation) (.object a ms) (.node n)
  | clause {c : Clause} {a : Access} {ms : List (String × Value)} {n : Node}
    (compiles : C (.object a ms) n) : ParamOf C (some (.clause c)) (.object a ms) (.node n)

/-- What a member of a schema turns into. -/
inductive MemberOf (rules : Listing Rule) (mode : Mode) : String × Value → Member → Prop
  | note {key : String} {v : Value} (known : key ≠ referenceKey) (note : key ∈ descriptiveKeys) :
    MemberOf rules mode (key, v) (.note key v.freeze)
  | kept {key : String} {v : Value} (known : key ≠ referenceKey) (entry : key ∉ descriptiveKeys)
    (unruled : Listing.get? key rules = none) (lenient : mode ≠ .strict) :
    MemberOf rules mode (key, v) (.entry (.mk key (.plain v.freeze) none))
  | ruled {key : String} {v : Value} {rule : Rule} {p : Param} (known : key ≠ referenceKey)
    (entry : key ∉ descriptiveKeys) (ruled : Listing.get? key rules = some rule)
    (compiles : ParamOf (Compiles rules mode) (Keyword.ofName? key) v p) :
    MemberOf rules mode (key, v) (.entry (.mk key p (some rule)))

/-- What a list compiles to, for a compiler that takes one element after the other. -/
theorem result_eq_ok_iff_forall₂ {α β : Type} {f : Nat → List α → Compiling (List β)}
    {R : α → β → Prop} (nil : ∀ i, (f i []).result = .ok [])
    (cons : ∀ i x xs zs, (f i (x :: xs)).result = .ok zs ↔
      ∃ y ys, R x y ∧ (f (i + 1) xs).result = .ok ys ∧ y :: ys = zs)
    (i : Nat) (xs : List α) (ys : List β) :
    (f i xs).result = .ok ys ↔ List.Forall₂ R xs ys := by
  induction xs generalizing i ys with
  | nil => simp [nil, eq_comm]
  | cons x xs ih =>
    simp only [cons, ih, List.forall₂_cons_left_iff]
    constructor
    · rintro ⟨y, ys, hy, hys, rfl⟩
      exact ⟨y, ys, hy, hys, rfl⟩
    · rintro ⟨y, ys, hy, hys, rfl⟩
      exact ⟨y, ys, hy, hys, rfl⟩

@[simp] theorem result_refuse {α : Type} (f : SchemaFault) :
    (refuse f : Compiling α).result = .error (.refused f) := rfl

/-- A nested schema compiles where it does on its own; only its failures tell the place. -/
theorem result_within_eq_ok_iff (a : Access) {place : Place} {ms : List (String × Value)}
    {n : Node} : (within place (members rules mode ms >>= assemble mode)).result = .ok n ↔
      Compiles rules mode (.object a ms) n := by
  unfold within Compiles compileNode
  exact Logged.result_mapError_eq_ok_iff

theorem result_checkPattern_eq_ok_iff {fault : String → SchemaFault} {pattern : String}
    {u : Unit} : (checkPattern fault pattern).result = .ok u ↔
      ∃ p, Pattern.compile pattern = .ok p := by
  unfold checkPattern
  split
  · simp_all
  · split <;> simp_all

theorem result_properties_eq_ok_iff {ms : List (String × Value)} {ns : List (String × Node)} :
    (properties rules mode ms).result = .ok ns ↔
      List.Forall₂ (fun m n => m.1 = n.1 ∧ Compiles rules mode m.2 n.2) ms ns := by
  refine result_eq_ok_iff_forall₂ (f := fun _ => properties rules mode) (fun _ => rfl) ?_ 0 ms ns
  rintro - ⟨name, v⟩ rest zs
  cases v
  case object a ms =>
    simp only [properties, Logged.result_bind_eq_ok_iff, result_within_eq_ok_iff a,
      Logged.result_pure, Except.ok.injEq]
    constructor
    · rintro ⟨n, hn, ns, hns, rfl⟩
      exact ⟨(name, n), ns, ⟨rfl, hn⟩, hns, rfl⟩
    · rintro ⟨⟨_, n⟩, ns, ⟨rfl, hn⟩, hns, rfl⟩
      exact ⟨n, hn, ns, hns, rfl⟩
  all_goals simp [properties, Compiles, compileNode]

theorem result_patternProperties_eq_ok_iff {ms : List (String × Value)}
    {ns : List (String × Node)} :
    (patternProperties rules mode ms).result = .ok ns ↔
      List.Forall₂ (fun m n => m.1 = n.1 ∧ Compiles rules mode m.2 n.2 ∧
        ∃ p, Pattern.compile n.1 = .ok p) ms ns := by
  refine result_eq_ok_iff_forall₂ (f := fun _ => patternProperties rules mode) (fun _ => rfl) ?_
    0 ms ns
  rintro - ⟨pattern, v⟩ rest zs
  cases v
  case object a ms =>
    simp only [patternProperties, Logged.result_bind_eq_ok_iff, result_checkPattern_eq_ok_iff,
      result_within_eq_ok_iff a, Logged.result_pure, Except.ok.injEq]
    constructor
    · rintro ⟨-, read, n, hn, ns, hns, rfl⟩
      exact ⟨(pattern, n), ns, ⟨rfl, hn, read⟩, hns, rfl⟩
    · rintro ⟨⟨_, n⟩, ns, ⟨rfl, hn, read⟩, hns, rfl⟩
      exact ⟨(), read, n, hn, ns, hns, rfl⟩
  all_goals
    simp only [patternProperties, Logged.result_bind_eq_ok_iff]
    simp [Compiles, compileNode]

theorem result_elements_eq_ok_iff {i : Nat} {xs : List Value} {ns : List Node} :
    (elements rules mode i xs).result = .ok ns ↔ List.Forall₂ (Compiles rules mode) xs ns := by
  refine result_eq_ok_iff_forall₂ (fun i => by rw [elements]; rfl) ?_ i xs ns
  intro i v rest zs
  cases v
  case object a ms =>
    simp only [elements, Logged.result_bind_eq_ok_iff, result_within_eq_ok_iff a,
      Logged.result_pure, Except.ok.injEq]
    exact ⟨fun ⟨n, hn, ns, hns, h⟩ => ⟨n, ns, hn, hns, h⟩,
      fun ⟨n, ns, hn, hns, h⟩ => ⟨n, hn, ns, hns, h⟩⟩
  all_goals simp [elements, Compiles, compileNode]

theorem result_branches_eq_ok_iff {c : Combinator} {i : Nat} {xs : List Value} {ns : List Node} :
    (branches rules mode c i xs).result = .ok ns ↔ List.Forall₂ (Compiles rules mode) xs ns := by
  refine result_eq_ok_iff_forall₂ (fun i => by rw [branches]; rfl) ?_ i xs ns
  intro i v rest zs
  cases v
  case object a ms =>
    simp only [branches, Logged.result_bind_eq_ok_iff, result_within_eq_ok_iff a,
      Logged.result_pure, Except.ok.injEq]
    exact ⟨fun ⟨n, hn, ns, hns, h⟩ => ⟨n, ns, hn, hns, h⟩,
      fun ⟨n, ns, hn, hns, h⟩ => ⟨n, hn, ns, hns, h⟩⟩
  all_goals simp [branches, Compiles, compileNode]

theorem strings?_eq_some_iff {xs : List Value} {names : List String} :
    strings? xs = some names ↔ xs = names.map .string := by
  fun_induction strings? xs generalizing names with
  | case1 => simp [eq_comm]
  | case2 s vs ih => cases names <;> simp [ih, and_comm]
  | case3 v vs h => cases names <;> simp_all

theorem result_dependencies_eq_ok_iff {ms : List (String × Value)}
    {ds : List (String × Dependency)} :
    (dependencies rules mode ms).result = .ok ds ↔
      List.Forall₂ (fun m d => m.1 = d.1 ∧ DependencyOf (Compiles rules mode) m.2 d.2) ms ds := by
  refine result_eq_ok_iff_forall₂ (f := fun _ => dependencies rules mode) (fun _ => rfl) ?_ 0 ms ds
  rintro - ⟨name, v⟩ rest zs
  cases v
  case object a ms =>
    simp only [dependencies, Logged.result_bind_eq_ok_iff, result_within_eq_ok_iff a,
      Logged.result_pure, Except.ok.injEq]
    constructor
    · rintro ⟨n, hn, ds, hds, rfl⟩
      exact ⟨(name, .node n), ds, ⟨rfl, .node hn⟩, hds, rfl⟩
    · rintro ⟨⟨_, d⟩, ds, ⟨rfl, hd⟩, hds, rfl⟩
      cases hd with
      | node hn => exact ⟨_, hn, ds, hds, rfl⟩
  case array a xs =>
    rw [dependencies]
    split
    case h_1 names h =>
      simp only [Logged.result_bind_eq_ok_iff, Logged.result_pure, Except.ok.injEq]
      constructor
      · rintro ⟨ds, hds, rfl⟩
        obtain rfl := strings?_eq_some_iff.mp h
        exact ⟨(name, .names names), ds, ⟨rfl, .names⟩, hds, rfl⟩
      · rintro ⟨⟨_, d⟩, ds, ⟨rfl, hd⟩, hds, rfl⟩
        cases hd with
        | @names _ others =>
          obtain rfl : others = names :=
            Option.some.inj ((strings?_eq_some_iff.mpr rfl).symm.trans h)
          exact ⟨ds, hds, rfl⟩
    case h_2 _ h =>
      simp only [result_refuse, reduceCtorEq, false_iff]
      rintro ⟨⟨_, d⟩, ds, ⟨rfl, hd⟩, -, -⟩
      cases hd with
      | names => cases (strings?_eq_some_iff.mpr rfl).symm.trans h
  all_goals
    simp only [dependencies, result_refuse, reduceCtorEq, false_iff]
    rintro ⟨⟨_, d⟩, ds, ⟨rfl, hd⟩, -, -⟩
    cases hd

/-- Names of types are kept as they are. -/
theorem result_typeNames_eq_ok_iff {xs ys : List Value} :
    (typeNames xs).result = .ok ys ↔
      (∀ x ∈ xs, ∃ s, x = .string s ∧ (JsonType.ofName? s).isSome) ∧ xs = ys := by
  induction xs generalizing ys with
  | nil => simp [typeNames]
  | cons x xs ih =>
    simp only [typeNames, Logged.result_bind_eq_ok_iff, ih, Logged.result_pure, Except.ok.injEq,
      List.forall_mem_cons]
    have head : ∀ y, (typeName x).result = .ok y ↔
        (∃ s, x = .string s ∧ (JsonType.ofName? s).isSome) ∧ x = y := by
      intro y
      unfold typeName
      split
      · split <;> simp_all
      · simp_all
    simp only [head]
    constructor
    · rintro ⟨y, ⟨hx, rfl⟩, ys, ⟨hxs, rfl⟩, rfl⟩
      exact ⟨⟨hx, hxs⟩, rfl⟩
    · rintro ⟨⟨hx, hxs⟩, rfl⟩
      exact ⟨x, ⟨hx, rfl⟩, xs, ⟨hxs, rfl⟩, rfl⟩

theorem result_requiredNames_eq_ok_iff {i : Nat} {xs ys : List Value} :
    (requiredNames i xs).result = .ok ys ↔ (∀ x ∈ xs, ∃ s, x = .string s) ∧ xs = ys := by
  induction xs generalizing i ys with
  | nil => simp [requiredNames]
  | cons x xs ih =>
    cases x
    case string s =>
      simp only [requiredNames, Logged.result_bind_eq_ok_iff, ih, Logged.result_pure,
        Except.ok.injEq, List.forall_mem_cons]
      constructor
      · rintro ⟨ys, ⟨hxs, rfl⟩, rfl⟩
        exact ⟨⟨⟨s, rfl⟩, hxs⟩, rfl⟩
      · rintro ⟨⟨-, hxs⟩, rfl⟩
        exact ⟨xs, ⟨hxs, rfl⟩, rfl⟩
    all_goals simp [requiredNames]

theorem result_countParam_eq_ok_iff {keyword : String} {v w : Value} :
    (countParam keyword v).result = .ok w ↔ ∃ i, v.toInt? = some i ∧ 0 ≤ i ∧ .ofInt i = w := by
  unfold countParam
  split
  case h_1 h => simp [h]
  case h_2 i h =>
    split
    case isTrue negative =>
      simp only [result_refuse, reduceCtorEq, h, Option.some.injEq, false_iff]
      rintro ⟨j, rfl, natural, -⟩
      omega
    case isFalse natural => simp [h, Int.not_lt.mp natural]

end Compile

end Conform
