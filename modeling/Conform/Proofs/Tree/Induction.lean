import Conform.Tree

/-! Nodes below nodes. A property of nodes that follows from the nodes one level down holds of all;
the kinds of parameter are looked at here once, not in every proof about trees. -/
namespace Conform

def Dependency.subnodes : Dependency → List Node
  | .node n => [n]
  | _ => []

/-- The nodes that a parameter holds at its own level. -/
def Param.subnodes : Param → List Node
  | .plain _ => []
  | .node n => [n]
  | .nodes ns => ns
  | .named ns => ns.map (·.2)
  | .dependencies ds => ds.flatMap (·.2.subnodes)

namespace Node

def subnodes (n : Node) : List Node := n.entries.flatMap (·.param.subnodes)

theorem mem_subnodes {n m : Node} : m ∈ n.subnodes ↔ ∃ e ∈ n.entries, m ∈ e.param.subnodes :=
  List.mem_flatMap

theorem mem_subnodes_of_entry {n m : Node} {e : Entry} (he : e ∈ n.entries)
    (hm : m ∈ e.param.subnodes) : m ∈ n.subnodes :=
  mem_subnodes.mpr ⟨e, he, hm⟩

/-- Induction over trees: the kinds of parameter and the lists in them are seen through. -/
theorem induction {motive : Node → Prop}
    (step : ∀ n, (∀ m ∈ n.subnodes, motive m) → motive n) (n : Node) : motive n := by
  refine @Node.rec motive (fun e => ∀ m ∈ e.param.subnodes, motive m)
    (fun p => ∀ m ∈ p.subnodes, motive m) (fun d => ∀ m ∈ d.subnodes, motive m)
    (fun es => ∀ m ∈ es.flatMap (·.param.subnodes), motive m) (fun ns => ∀ m ∈ ns, motive m)
    (fun ns => ∀ m ∈ ns.map (·.2), motive m) (fun ds => ∀ m ∈ ds.flatMap (·.2.subnodes), motive m)
    (fun e => motive e.2) (fun d => ∀ m ∈ d.2.subnodes, motive m)
    ?node ?entry ?plain ?one ?many ?named ?dependencies ?names ?dependency ?unusable
    ?noEntry ?entries ?noNode ?nodes ?noName ?names' ?noDependency ?dependencies' ?pair ?pair' n
  case node => exact fun mode entries patterns notes ih => step _ ih
  case entry => exact fun _ _ _ ih => ih
  case one | dependency => exact fun n ih m hm => by simp_all [Param.subnodes, Dependency.subnodes]
  case many | named | dependencies => exact fun _ ih => ih
  case entries | dependencies' =>
    exact fun head tail first rest m hm => by
      rw [List.flatMap_cons, List.mem_append] at hm
      exact hm.elim (first m) (rest m)
  case nodes | names' =>
    exact fun head tail first rest => List.forall_mem_cons.mpr ⟨first, rest⟩
  case pair | pair' => exact fun _ _ ih => ih
  all_goals simp [Param.subnodes, Dependency.subnodes]

/-- A property of a node and of all nodes below it. -/
inductive Every (P : Node → Prop) : Node → Prop
  | intro {n : Node} (root : P n) (inside : ∀ m ∈ n.subnodes, Every P m) : Every P n

namespace Every

variable {P : Node → Prop} {n m : Node}

theorem root (h : n.Every P) : P n := by
  cases h with
  | intro root _ => exact root

theorem of_mem (h : n.Every P) (hm : m ∈ n.subnodes) : m.Every P := by
  cases h with
  | intro _ inside => exact inside m hm

theorem imp {Q : Node → Prop} (h : n.Every P) (step : ∀ m, P m → Q m) : n.Every Q := by
  induction h with
  | intro root _ ih => exact .intro (step _ root) ih

end Every

/-- Somewhere in the tree an entry is bound to the rule of a keyword. -/
inductive Asks (k : Keyword) : Node → Prop
  | own {n : Node} {e : Entry} {r : Rule} (mem : e ∈ n.entries) (ruled : e.rule = some r)
    (handler : r.handler = .builtin k) : Asks k n
  | inside {n m : Node} (sub : m ∈ n.subnodes) (asks : Asks k m) : Asks k n

end Node

end Conform
