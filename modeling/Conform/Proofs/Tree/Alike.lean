import Conform.Proofs.Pointwise
import Conform.Proofs.Tree.Induction

/-! Trees that hold the same for whoever runs them. What counts of a node are its bindings in their
order, the names it declares and its patterns; its mode, its notes and what it only keeps do not. -/
namespace Conform

section

variable (R : Node → Node → Prop)

/-- Dependencies of one kind, whose nodes are related. -/
inductive Dependency.Related : Dependency → Dependency → Prop
  | names (required : List String) : Related (.names required) (.names required)
  | node {n m : Node} (nodes : R n m) : Related (.node n) (.node m)
  | unusable (v : Value) : Related (.unusable v) (.unusable v)

/-- Parameters of one shape, with the same names, whose nodes are related. -/
inductive Param.Related : Param → Param → Prop
  | plain (v : Value) : Related (.plain v) (.plain v)
  | node {n m : Node} (nodes : R n m) : Related (.node n) (.node m)
  | nodes {ns ms : List Node} (nodes : List.Forall₂ R ns ms) : Related (.nodes ns) (.nodes ms)
  | named {ns ms : List (String × Node)} (nodes : List.Forall₂ (Named R) ns ms) :
    Related (.named ns) (.named ms)
  | dependencies {ds es : List (String × Dependency)}
    (nodes : List.Forall₂ (Named (Dependency.Related R)) ds es) :
    Related (.dependencies ds) (.dependencies es)

/-- One keyword with one rule, whose parameters are related. -/
inductive Binding.Related : Binding → Binding → Prop
  | intro (keyword : String) (rule : Rule) {p q : Param} (param : Param.Related R p q) :
    Related ⟨keyword, p, rule⟩ ⟨keyword, q, rule⟩

/-- One key with one rule or none, whose parameters are related. -/
inductive Entry.Related : Entry → Entry → Prop
  | intro (keyword : String) (rule : Option Rule) {p q : Param} (param : Param.Related R p q) :
    Related (.mk keyword p rule) (.mk keyword q rule)

end

/-- Trees with the same bindings, declared names and patterns at every node. -/
inductive Node.Alike : Node → Node → Prop
  | intro {n m : Node} (bindings : List.Forall₂ (Binding.Related Alike) n.bindings m.bindings)
    (declared : n.declared = m.declared) (patterns : n.patterns = m.patterns) : Alike n m

/-- Trees with nothing different but the modes of their nodes. -/
inductive Node.SameButMode : Node → Node → Prop
  | intro {n m : Node} (entries : List.Forall₂ (Entry.Related SameButMode) n.entries m.entries)
    (patterns : n.patterns = m.patterns) (notes : n.notes = m.notes) : SameButMode n m

section

variable {R S : Node → Node → Prop}

theorem Dependency.Related.imp_of_mem {d e : Dependency} (h : d.Related R e)
    (step : ∀ n ∈ d.subnodes, ∀ m ∈ e.subnodes, R n m → S n m) : d.Related S e := by
  cases h with
  | names required => exact .names required
  | node nodes => exact .node (step _ (.head _) _ (.head _) nodes)
  | unusable v => exact .unusable v

/-- Nodes may be looked up in their parameters while the relation is changed. -/
theorem Param.Related.imp_of_mem {p q : Param} (h : p.Related R q)
    (step : ∀ n ∈ p.subnodes, ∀ m ∈ q.subnodes, R n m → S n m) : p.Related S q := by
  cases h with
  | plain v => exact .plain v
  | node nodes => exact .node (step _ (.head _) _ (.head _) nodes)
  | nodes nodes => exact .nodes (forall₂_imp_of_mem nodes step)
  | named nodes =>
    refine .named (forall₂_imp_of_mem nodes ?_)
    rintro _ ha _ hb ⟨name, related⟩
    exact .intro name (step _ (List.mem_map_of_mem ha) _ (List.mem_map_of_mem hb) related)
  | dependencies nodes =>
    refine .dependencies (forall₂_imp_of_mem nodes ?_)
    rintro _ ha _ hb ⟨name, related⟩
    refine .intro name (related.imp_of_mem fun n hn m hm => step n ?_ m ?_)
    · exact List.mem_flatMap.mpr ⟨_, ha, hn⟩
    · exact List.mem_flatMap.mpr ⟨_, hb, hm⟩

theorem Param.Related.refl_of_mem {p : Param} (h : ∀ n ∈ p.subnodes, R n n) : p.Related R p := by
  cases p with
  | plain v => exact .plain v
  | node n => exact .node (h n (.head _))
  | nodes ns => exact .nodes (List.forall₂_same.mpr h)
  | named ns =>
    exact .named (List.forall₂_same.mpr fun e he => .intro e.1 (h _ (List.mem_map_of_mem he)))
  | dependencies ds =>
    refine .dependencies (List.forall₂_same.mpr fun e he => .intro e.1 ?_)
    obtain ⟨name, d⟩ := e
    cases d with
    | names required => exact .names required
    | node n => exact .node (h n (List.mem_flatMap.mpr ⟨_, he, .head _⟩))
    | unusable v => exact .unusable v

theorem Param.Related.names?_eq {p q : Param} (h : p.Related R q) : p.names? = q.names? := by
  cases h with
  | plain | node | nodes => rfl
  | named nodes | dependencies nodes =>
    have names := map_eq_map_of_forall₂ (f := (·.1)) (g := (·.1)) nodes fun _ _ h =>
      (Named.iff.mp h).1
    simp only [Param.names?, names]

/-- A rule of a user is shown names and shapes, and no nodes. -/
theorem Param.Related.view_eq {p q : Param} (h : p.Related R q) : p.view = q.view := by
  cases h with
  | plain | node => rfl
  | nodes nodes => simp only [Param.view, List.map_const', nodes.length_eq]
  | named nodes =>
    have views := map_eq_map_of_forall₂ (f := fun a => (a.1, nodeView))
      (g := fun b => (b.1, nodeView)) nodes (by rintro _ _ ⟨⟩; rfl)
    simp only [Param.view, views]
  | dependencies nodes =>
    have views := map_eq_map_of_forall₂ (f := fun a => (a.1, dependencyView a.2))
      (g := fun b => (b.1, dependencyView b.2)) nodes
      (by rintro _ _ ⟨name, ⟨⟩⟩ <;> rfl)
    simp only [Param.view, views]

end

def Binding.entry (b : Binding) : Entry := .mk b.keyword b.param (some b.rule)

def Entry.binding? (e : Entry) : Option Binding := e.rule.map fun r => ⟨e.keyword, e.param, r⟩

namespace Node

variable {n m : Node}

theorem bindings_eq (n : Node) : n.bindings = n.entries.filterMap Entry.binding? := rfl

theorem mem_bindings {b : Binding} :
    b ∈ n.bindings ↔ b.entry ∈ n.entries := by
  unfold bindings
  simp only [List.mem_filterMap, Option.map_eq_some_iff]
  constructor
  · rintro ⟨⟨keyword, p, rule⟩, he, r, ruled, rfl⟩
    cases ruled
    exact he
  · exact fun he => ⟨_, he, b.rule, rfl, rfl⟩

theorem mem_subnodes_of_binding {b : Binding} (hb : b ∈ n.bindings) (hm : m ∈ b.param.subnodes) :
    m ∈ n.subnodes :=
  mem_subnodes_of_entry (mem_bindings.mp hb) hm

theorem hasRules_eq : n.hasRules = !n.bindings.isEmpty := by
  unfold hasRules bindings
  induction n.entries with
  | nil => rfl
  | cons e es ih => obtain ⟨keyword, p, _ | r⟩ := e <;> simp_all [Entry.rule]

namespace Alike

theorem bindings (h : Alike n m) : List.Forall₂ (Binding.Related Alike) n.bindings m.bindings := by
  cases h with
  | intro bindings _ _ => exact bindings

theorem declared (h : Alike n m) : n.declared = m.declared := by
  cases h with
  | intro _ declared _ => exact declared

theorem patterns (h : Alike n m) : n.patterns = m.patterns := by
  cases h with
  | intro _ _ patterns => exact patterns

theorem hasRules_eq (h : Alike n m) : n.hasRules = m.hasRules := by
  have bindings := h.bindings
  rw [Node.hasRules_eq, Node.hasRules_eq]
  generalize n.bindings = bs, m.bindings = cs at bindings
  cases bindings <;> rfl

end Alike

theorem rel_paramIn?_cons {R : Node → Node → Prop} {es fs : List Entry} {keyword key : String}
    {rule : Option Rule} {p q : Param} (param : p.Related R q)
    (h : Option.Rel (Param.Related R) (paramIn? key es) (paramIn? key fs)) :
    Option.Rel (Param.Related R) (paramIn? key (.mk keyword p rule :: es))
      (paramIn? key (.mk keyword q rule :: fs)) := by
  by_cases same : keyword = key
  · simpa [paramIn?, Entry.keyword, Entry.param, same] using param
  · simpa [paramIn?, Entry.keyword, same] using h

/-- Related entries hold related parameters under every key. -/
theorem rel_paramIn? {R : Node → Node → Prop} {es fs : List Entry}
    (h : List.Forall₂ (Entry.Related R) es fs) (key : String) :
    Option.Rel (Param.Related R) (paramIn? key es) (paramIn? key fs) := by
  induction h with
  | nil => exact .none
  | cons first _ ih =>
    obtain ⟨keyword, rule, param⟩ := first
    exact rel_paramIn?_cons param ih

theorem names_eq_of_rel {R : Node → Node → Prop} {p q : Option Param}
    (h : Option.Rel (Param.Related R) p q) :
    (p.bind Param.names?).getD [] = (q.bind Param.names?).getD [] := by
  cases h with
  | none => rfl
  | some param => rw [Option.bind_some, Option.bind_some, param.names?_eq]

theorem SameButMode.alike (h : SameButMode n m) : Alike n m := by
  induction n using Node.induction generalizing m with
  | step n ih =>
    obtain ⟨entries, patterns, -⟩ := h
    have related : List.Forall₂ (Entry.Related Alike) n.entries m.entries := by
      refine forall₂_imp_of_mem entries ?_
      rintro _ he _ - ⟨keyword, rule, param⟩
      refine .intro keyword rule (param.imp_of_mem fun a ha b _ same => ?_)
      exact ih a (mem_subnodes_of_entry he ha) same
    refine .intro ?_ (names_eq_of_rel (rel_paramIn? entries _)) patterns
    rw [bindings_eq, bindings_eq]
    generalize n.entries = es, m.entries = fs at related
    induction related with
    | nil => exact .nil
    | cons first _ rest =>
      obtain ⟨keyword, _ | rule, param⟩ := first
      · exact rest
      · exact .cons (.intro keyword rule param) rest

end Node

end Conform
