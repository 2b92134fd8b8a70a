import Conform.Proofs.Schema.Inversion
import Conform.Proofs.Tree.Alike

/-! Two compilations side by side, in two modes and of two schemas. Keyword by keyword they end alike
where they do so on the schemas inside. -/
namespace Conform.Compile

/-- How one compilation ends beside another: both succeed and give what is related, or both fail,
where they are `exact` by the same failure. With something to `spare`, the first may fail alone. -/
inductive Paired {α β : Type} (exact spare : Prop) (R : α → β → Prop) :
    Except CompileFailure α → Except CompileFailure β → Prop
  | done {a : α} {b : β} (related : R a b) : Paired exact spare R (.ok a) (.ok b)
  | failed {e f : CompileFailure} (same : exact → e = f) :
    Paired exact spare R (.error e) (.error f)
  | spared {e : CompileFailure} {b : β} (may : spare) (inexact : ¬exact) :
    Paired exact spare R (.error e) (.ok b)

namespace Paired

variable {α β γ δ : Type} {exact spare : Prop} {R : α → β → Prop} {S : γ → δ → Prop}

theorem error_left {e : CompileFailure} {y : Except CompileFailure β} (may : spare)
    (inexact : ¬exact) : Paired exact spare R (.error e) y := by
  cases y with
  | ok b => exact .spared may inexact
  | error f => exact .failed fun h => absurd h inexact

theorem bind {x : Compiling α} {y : Compiling β} {f : α → Compiling γ} {g : β → Compiling δ}
    (h : Paired exact spare R x.result y.result)
    (next : ∀ a b, R a b → Paired exact spare S (f a).result (g b).result) :
    Paired exact spare S (x >>= f).result (y >>= g).result := by
  rw [Logged.result_bind, Logged.result_bind]
  generalize x.result = r, y.result = t at h
  cases h with
  | done related => exact next _ _ related
  | failed same => exact .failed same
  | spared may inexact => exact .error_left may inexact

/-- The first goes on where the second is done. -/
theorem bind_left {x : Compiling α} {y : Compiling β} {f : α → Compiling γ} {T : γ → β → Prop}
    (h : Paired exact spare R x.result y.result)
    (next : ∀ a b, R a b → Paired exact spare T (f a).result (.ok b)) :
    Paired exact spare T (x >>= f).result y.result := by
  have both := h.bind (f := f) (g := pure) next
  rwa [Logged.bind_pure] at both

/-- What both compute alike decides for both. -/
theorem bind_self (x : Compiling α) {f : α → Compiling γ} {g : α → Compiling δ}
    (next : ∀ a, Paired exact spare S (f a).result (g a).result) :
    Paired exact spare S (x >>= f).result (x >>= g).result := by
  rw [Logged.result_bind, Logged.result_bind]
  cases x.result with
  | ok a => exact next a
  | error e => exact .failed fun _ => rfl

theorem map {x : Compiling α} {y : Compiling β} {f : α → γ} {g : β → δ}
    (h : Paired exact spare R x.result y.result) (related : ∀ a b, R a b → S (f a) (g b)) :
    Paired exact spare S (x.map f).result (y.map g).result := by
  rw [Logged.result_map, Logged.result_map]
  generalize x.result = r, y.result = t at h
  cases h with
  | done h => exact .done (related _ _ h)
  | failed same => exact .failed same
  | spared may inexact => exact .spared may inexact

theorem within {place : Place} {x : Compiling α} {y : Compiling β}
    (h : Paired exact spare R x.result y.result) :
    Paired exact spare R (within place x).result (within place y).result := by
  unfold Compile.within
  rw [Logged.result_mapError, Logged.result_mapError]
  generalize x.result = r, y.result = t at h
  cases h with
  | done related => exact .done related
  | failed same => exact .failed fun h => by rw [same h]
  | spared may inexact => exact .spared may inexact

theorem refuse (f : SchemaFault) :
    Paired exact spare R (Compile.refuse f).result (Compile.refuse f).result :=
  .failed fun _ => rfl

theorem plain (x : Compiling Value) (R : Node → Node → Prop) :
    Paired exact spare (Param.Related R) (x.map .plain).result (x.map .plain).result := by
  rw [Logged.result_map]
  cases x.result with
  | ok v => exact .done (.plain v)
  | error e => exact .failed fun _ => rfl

section

variable {x : Except CompileFailure α} {y : Except CompileFailure β}

theorem imp {T : α → β → Prop} (h : Paired exact spare R x y) (step : ∀ a b, R a b → T a b) :
    Paired exact spare T x y := by
  cases h with
  | done related => exact .done (step _ _ related)
  | failed same => exact .failed same
  | spared may inexact => exact .spared may inexact

theorem exists_of_ok (h : Paired exact spare R x y) {a : α} (hx : x = .ok a) :
    ∃ b, y = .ok b ∧ R a b := by
  subst hx
  cases h with
  | done related => exact ⟨_, rfl, related⟩

theorem related (h : Paired exact spare R x y) {a : α} {b : β} (hx : x = .ok a) (hy : y = .ok b) :
    R a b := by
  obtain ⟨c, hc, related⟩ := h.exists_of_ok hx
  cases hy.symm.trans hc
  exact related

theorem exists_ok_iff (h : Paired exact spare R x y) (unsparing : ¬spare) :
    (∃ a, x = .ok a) ↔ ∃ b, y = .ok b := by
  cases h with
  | done => exact ⟨fun _ => ⟨_, rfl⟩, fun _ => ⟨_, rfl⟩⟩
  | failed => exact ⟨nofun, nofun⟩
  | spared may => exact absurd may unsparing

theorem eq_error_iff (h : Paired exact spare R x y) (exactly : exact) (e : CompileFailure) :
    x = .error e ↔ y = .error e := by
  cases h with
  | done => exact ⟨nofun, nofun⟩
  | failed same => simp [same exactly]
  | spared _ inexact => exact absurd exactly inexact

end

end Paired

/-- A change of schemas that leaves alone what is none. -/
structure OnSchemas (f : Value → Value) : Prop where
  object : ∀ a ms, ∃ ns, f (.object a ms) = .object a ns
  empty : ∀ a, f (.object a []) = .object a []
  other : ∀ v : Value, v.isObject = false → f v = v

section

variable {rules : Listing Rule} {mode mode' : Mode} {exact spare : Prop} {f : Value → Value}
  {R : Node → Node → Prop}

/-- A schema and its changed form compile side by side. -/
def Pairs (rules : Listing Rule) (mode mode' : Mode) (exact spare : Prop) (f : Value → Value)
    (R : Node → Node → Prop) (raw : Value) : Prop :=
  Paired exact spare R (compileNode rules mode raw).result (compileNode rules mode' (f raw)).result

theorem paired_within (place : Place) {a : Access} {ms ns : List (String × Value)}
    (same : f (.object a ms) = .object a ns)
    (h : Pairs rules mode mode' exact spare f R (.object a ms)) :
    Paired exact spare R (within place (members rules mode ms >>= assemble mode)).result
      (within place (members rules mode' ns >>= assemble mode')).result := by
  unfold Pairs at h
  rw [same] at h
  exact h.within

variable (shape : OnSchemas f)
include shape

theorem paired_properties {ms : List (String × Value)}
    (below : ∀ m ∈ ms, Pairs rules mode mode' exact spare f R m.2) :
    Paired exact spare (List.Forall₂ (Named R)) (properties rules mode ms).result
      (properties rules mode' (ms.map fun m => (m.1, f m.2))).result := by
  induction ms with
  | nil => exact .done .nil
  | cons m ms ih =>
    obtain ⟨name, v⟩ := m
    rw [List.forall_mem_cons] at below
    rw [List.map_cons]
    dsimp only
    cases v
    case object a inner =>
      obtain ⟨ns, hns⟩ := shape.object a inner
      rw [hns, properties, properties]
      refine (paired_within _ hns below.1).bind fun n m related => ?_
      exact (ih below.2).bind fun _ _ rest => .done (.cons (.intro name related) rest)
    all_goals
      rw [shape.other _ rfl]
      exact .refuse _

theorem paired_patternProperties {ms : List (String × Value)}
    (below : ∀ m ∈ ms, Pairs rules mode mode' exact spare f R m.2) :
    Paired exact spare (List.Forall₂ (Named R)) (patternProperties rules mode ms).result
      (patternProperties rules mode' (ms.map fun m => (m.1, f m.2))).result := by
  induction ms with
  | nil => exact .done .nil
  | cons m ms ih =>
    obtain ⟨name, v⟩ := m
    rw [List.forall_mem_cons] at below
    rw [List.map_cons]
    dsimp only
    cases v
    case object a inner =>
      obtain ⟨ns, hns⟩ := shape.object a inner
      rw [hns, patternProperties, patternProperties]
      refine Paired.bind_self _ fun _ => ?_
      refine (paired_within _ hns below.1).bind fun n m related => ?_
      exact (ih below.2).bind fun _ _ rest => .done (.cons (.intro name related) rest)
    all_goals
      rw [shape.other _ rfl]
      exact Paired.bind_self _ fun _ => .refuse _

theorem paired_elements {i : Nat} {xs : List Value}
    (below : ∀ x ∈ xs, Pairs rules mode mode' exact spare f R x) :
    Paired exact spare (List.Forall₂ R) (elements rules mode i xs).result
      (elements rules mode' i (xs.map f)).result := by
  induction xs generalizing i with
  | nil => exact .done .nil
  | cons x xs ih =>
    rw [List.forall_mem_cons] at below
    rw [List.map_cons]
    cases x
    case object a inner =>
      obtain ⟨ns, hns⟩ := shape.object a inner
      rw [hns, elements, elements]
      refine (paired_within _ hns below.1).bind fun n m related => ?_
      exact (ih below.2).bind fun _ _ rest => .done (.cons related rest)
    all_goals
      rw [shape.other _ rfl]
      exact .refuse _

theorem paired_branches {c : Combinator} {i : Nat} {xs : List Value}
    (below : ∀ x ∈ xs, Pairs rules mode mode' exact spare f R x) :
    Paired exact spare (List.Forall₂ R) (branches rules mode c i xs).result
      (branches rules mode' c i (xs.map f)).result := by
  induction xs generalizing i with
  | nil => exact .done .nil
  | cons x xs ih =>
    rw [List.forall_mem_cons] at below
    rw [List.map_cons]
    cases x
    case object a inner =>
      obtain ⟨ns, hns⟩ := shape.object a inner
      rw [hns, branches, branches]
      refine (paired_within _ hns below.1).bind fun n m related => ?_
      exact (ih below.2).bind fun _ _ rest => .done (.cons related rest)
    all_goals
      rw [shape.other _ rfl]
      exact .refuse _

theorem paired_dependencies {ms : List (String × Value)}
    (below : ∀ m ∈ ms, m.2.isObject → Pairs rules mode mode' exact spare f R m.2) :
    Paired exact spare (List.Forall₂ (Named (Dependency.Related R)))
      (dependencies rules mode ms).result
      (dependencies rules mode' (ms.map fun m => (m.1, f m.2))).result := by
  induction ms with
  | nil => exact .done .nil
  | cons m ms ih =>
    obtain ⟨name, v⟩ := m
    rw [List.forall_mem_cons] at below
    rw [List.map_cons]
    dsimp only
    cases v
    case object a inner =>
      obtain ⟨ns, hns⟩ := shape.object a inner
      rw [hns, dependencies, dependencies]
      refine (paired_within _ hns (below.1 rfl)).bind fun n m related => ?_
      exact (ih below.2).bind fun _ _ rest => .done (.cons (.intro name (.node related)) rest)
    case array a xs =>
      rw [shape.other _ rfl, dependencies, dependencies]
      split
      · exact (ih below.2).bind fun _ _ rest => .done (.cons (.intro name (.names _)) rest)
      · exact .refuse _
    all_goals
      rw [shape.other _ rfl]
      exact .refuse _

/-- A negation may lose its last keyword and is then refused as empty, where before it was refused
as idle. -/
theorem paired_negation (whole : exact → ∀ v, f v = v)
    (ruled : ∀ n m, R n m → n.hasRules = m.hasRules) {a : Access} {ms : List (String × Value)}
    (h : Pairs rules mode mode' exact spare f R (.object a ms)) :
    Paired exact spare (Param.Related R) (param rules mode (some .negation) (.object a ms)).result
      (param rules mode' (some .negation) (f (.object a ms))).result := by
  cases ms with
  | nil =>
    rw [shape.empty]
    exact .refuse _
  | cons m ms =>
    obtain ⟨ns, hns⟩ := shape.object a (m :: ms)
    have inside := paired_within .negation hns h
    rw [hns]
    cases ns with
    | cons n ns =>
      rw [param, param]
      refine inside.bind fun n m related => ?_
      rw [ruled n m related]
      split
      · exact .done (.node related)
      · exact .refuse _
    | nil =>
      have inexact : ¬exact := fun h => by simpa using (whole h _).symm.trans hns
      have idle : ∀ p, (param rules mode (some .negation) (.object a (m :: ms))).result ≠ .ok p := by
        intro p hp
        rw [param, Logged.result_bind_eq_ok_iff] at hp
        obtain ⟨n, hn, hp⟩ := hp
        rw [hn] at inside
        cases inside with
        | done related =>
          have ruleless : n.hasRules = false := ruled _ _ related
          rw [ruleless] at hp
          cases hp
      cases hp : (param rules mode (some .negation) (.object a (m :: ms))).result with
      | ok p => exact absurd hp (idle p)
      | error e => exact .failed fun h => absurd h inexact

/-- A keyword's value compiles beside its changed form where the schemas in it do. -/
theorem paired_param (whole : exact → ∀ v, f v = v)
    (ruled : ∀ n m, R n m → n.hasRules = m.hasRules) {k : Keyword} {v : Value}
    (below : ∀ sub ∈ Schema.subschemas k v, Pairs rules mode mode' exact spare f R sub) :
    Paired exact spare (Param.Related R) (param rules mode (some k) v).result
      (param rules mode' (some k) (Schema.mapSubschemas f k v)).result := by
  have inside : ∀ (place : Place) (a : Access) (ms : List (String × Value)),
      Pairs rules mode mode' exact spare f R (.object a ms) → ∃ ns, f (.object a ms) = .object a ns ∧
        Paired exact spare R (within place (members rules mode ms >>= assemble mode)).result
          (within place (members rules mode' ns >>= assemble mode')).result := by
    intro place a ms h
    obtain ⟨ns, hns⟩ := shape.object a ms
    exact ⟨ns, hns, paired_within _ hns h⟩
  cases k
  case properties =>
    cases v
    case object a ms =>
      rw [Schema.mapSubschemas, param, param]
      exact (paired_properties shape fun m hm => below _ (List.mem_map_of_mem hm)).map
        fun _ _ => .named
    all_goals exact .refuse _
  case patternProperties =>
    cases v
    case object a ms =>
      rw [Schema.mapSubschemas, param, param]
      exact (paired_patternProperties shape fun m hm => below _ (List.mem_map_of_mem hm)).map
        fun _ _ => .named
    all_goals exact .refuse _
  case additionalProperties =>
    cases v
    case object a ms =>
      obtain ⟨ns, hns, paired⟩ := inside .additional a ms (below _ (.head _))
      rw [Schema.mapSubschemas, hns, param, param]
      exact paired.map fun _ _ => .node
    case bool b =>
      rw [Schema.mapSubschemas, shape.other _ rfl]
      exact .done (.plain _)
    all_goals
      rw [Schema.mapSubschemas, shape.other _ rfl]
      exact .refuse _
  case items =>
    cases v
    case object a ms =>
      obtain ⟨ns, hns, paired⟩ := inside .items a ms (below _ (.head _))
      rw [Schema.mapSubschemas, hns, param, param]
      · exact paired.map fun _ _ => .node
      · simp
    case array a xs =>
      rw [Schema.mapSubschemas, param, param]
      exact (paired_elements shape below).map fun _ _ => .nodes
    all_goals
      rw [Schema.mapSubschemas, shape.other _ rfl]
      · exact .refuse _
      · simp
  case dependencies =>
    cases v
    case object a ms =>
      rw [Schema.mapSubschemas, param, param]
      refine (paired_dependencies shape fun m hm object => below _ ?_).map fun _ _ => .dependencies
      exact List.mem_filter.mpr ⟨List.mem_map_of_mem hm, object⟩
    all_goals exact .refuse _
  case combine c =>
    cases v
    case array a xs =>
      rw [Schema.mapSubschemas]
      cases xs with
      | nil => exact .refuse _
      | cons x xs =>
        rw [List.map_cons, param, param]
        exact (paired_branches shape below).map fun _ _ => .nodes
    all_goals exact .refuse _
  case negation =>
    cases v
    case object a ms => exact paired_negation shape whole ruled (below _ (.head _))
    all_goals
      rw [Schema.mapSubschemas, shape.other _ rfl]
      exact .refuse _
  case clause c =>
    cases v
    case object a ms =>
      obtain ⟨ns, hns, paired⟩ := inside (.clause c) a ms (below _ (.head _))
      rw [Schema.mapSubschemas, hns, param, param]
      exact paired.map fun _ _ => .node
    all_goals
      rw [Schema.mapSubschemas, shape.other _ rfl]
      exact .refuse _
  case format =>
    rw [Schema.mapSubschemas, param, param]
    · exact .done (.plain _)
    all_goals simp
  all_goals
    rw [Schema.mapSubschemas, param, param]
    · exact .plain _ _
    all_goals simp

/-- A whole schema must be there on both sides or on none. -/
theorem Pairs.compileSchema {raw : Value} (h : Pairs rules mode mode' exact spare f R raw) :
    Paired exact spare R (compileSchema rules mode raw).result
      (compileSchema rules mode' (f raw)).result := by
  unfold Pairs at h
  cases raw
  case null =>
    rw [shape.other _ rfl]
    exact .refuse _
  case object a ms =>
    obtain ⟨ns, hns⟩ := shape.object a ms
    rw [hns] at h ⊢
    exact h
  all_goals
    rw [shape.other _ rfl] at h ⊢
    exact h

end

end Conform.Compile
