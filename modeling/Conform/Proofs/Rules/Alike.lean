import Conform.Proofs.Rules.Walk
import Conform.Proofs.Tree.Alike

/-! Alike trees evaluate alike: to the same findings, the same faults and the same log lines, whatever
rules they are bound to. An entry without a rule leaves no trace in a run. -/
namespace Conform.Rules

/-- Nodes that no rule above them can tell apart. -/
def Twin (n m : Node) : Prop := (∀ s, evaluate s n = evaluate s m) ∧ n.hasRules = m.hasRules

section

variable (s : Subject) {ns ms : List Node}

theorem runProperties_congr (members : List (String × Value)) {ns ms : List (String × Node)}
    (h : List.Forall₂ (Named Twin) ns ms) :
    runProperties s members ns = runProperties s members ms := by
  induction h with
  | nil => rfl
  | cons first _ ih =>
    obtain ⟨name, twin⟩ := first
    rw [runProperties, runProperties, ih]
    simp only [twin.1]

theorem runMatching_congr (name : String) (ps : List Pattern) {ns ms : List (String × Node)}
    (h : List.Forall₂ (Named Twin) ns ms) : runMatching s name ps ns = runMatching s name ps ms := by
  induction h generalizing ps with
  | nil => rfl
  | cons first _ ih =>
    obtain ⟨key, twin⟩ := first
    cases ps with
    | nil => rw [runMatching, runMatching] <;> simp
    | cons p ps => rw [runMatching, runMatching, ih, twin.1]

theorem runItems_congr (i : Nat) (xs : List Value) (h : List.Forall₂ Twin ns ms) :
    runItems s i xs ns = runItems s i xs ms := by
  induction h generalizing i xs with
  | nil => rfl
  | cons twin _ ih =>
    cases xs with
    | nil => rw [runItems, runItems] <;> simp
    | cons x xs => rw [runItems, runItems, ih, twin.1]

theorem runConjunction_congr (i : Nat) (h : List.Forall₂ Twin ns ms) :
    runConjunction s i ns = runConjunction s i ms := by
  induction h generalizing i with
  | nil => rfl
  | cons twin _ ih => rw [runConjunction, runConjunction, ih, twin.1]

theorem holdsSome_congr (h : List.Forall₂ Twin ns ms) : holdsSome s ns = holdsSome s ms := by
  induction h with
  | nil => rfl
  | cons twin _ ih => rw [holdsSome, holdsSome, ih, twin.1]

theorem countHolding_congr (h : List.Forall₂ Twin ns ms) :
    countHolding s ns = countHolding s ms := by
  induction h with
  | nil => rfl
  | cons twin _ ih => rw [countHolding, countHolding, ih, twin.1]

theorem runDependency_congr (members : List (String × Value)) (name : String) (v : Value)
    {d e : Dependency} (h : d.Related Twin e) :
    runDependency s members name v d = runDependency s members name v e := by
  cases h with
  | names | unusable => rfl
  | node twin => rw [runDependency, runDependency, twin.1]

theorem runDependencies_congr (members : List (String × Value))
    {ds es : List (String × Dependency)}
    (h : List.Forall₂ (Named (Dependency.Related Twin)) ds es) :
    runDependencies s members ds = runDependencies s members es := by
  induction h with
  | nil => rfl
  | cons first _ ih =>
    obtain ⟨name, related⟩ := first
    rw [runDependencies, runDependencies, ih]
    simp only [runDependency_congr s members name _ related]

/-- A built-in rule sees of the nodes in its parameter only what they find and whether they have
rules at all. -/
theorem runRule_congr (k : Keyword) {p q : Param} (h : p.Related Twin q) :
    runRule s k p = runRule s k q := by
  cases h with
  | plain => rfl
  | node twin =>
    cases k
    case additionalProperties | items | negation | clause => simp only [runRule, twin.1, twin.2]
    case combine c => cases c <;> rw [runRule, runRule] <;> simp
    all_goals rfl
  | @nodes ns ms twins =>
    cases k
    case items => simp only [runRule, runItems_congr s 0 _ twins]
    case combine c =>
      cases twins with
      | nil => rfl
      | cons twin twins =>
        have both := List.Forall₂.cons twin twins
        cases c with
        | allOf => rw [runRule, runRule, runConjunction_congr s 0 both]
        | anyOf => rw [runRule, runRule, holdsSome_congr s both]
        | oneOf => rw [runRule, runRule, countHolding_congr s both]
    all_goals rfl
  | named twins =>
    have names := map_eq_map_of_forall₂ (f := (·.1)) (g := (·.1)) twins fun _ _ h =>
      (Named.iff.mp h).1
    cases k
    case properties => simp only [runRule, runProperties_congr s _ twins]
    case patternProperties => simp only [runRule, names, runMatching_congr _ _ _ twins]
    case combine c => cases c <;> rw [runRule, runRule] <;> simp
    all_goals rfl
  | dependencies related =>
    cases k
    case dependencies => simp only [runRule, runDependencies_congr s _ related]
    case combine c => cases c <;> rw [runRule, runRule] <;> simp
    all_goals rfl

theorem runEntry_congr {b c : Binding} (h : b.Related Twin c) :
    runEntry s b.entry = runEntry s c.entry := by
  obtain ⟨keyword, rule, related⟩ := h
  simp only [Binding.entry, runEntry, runRule_congr s _ related, related.view_eq]

theorem runEntries_congr {bs cs : List Binding} (h : List.Forall₂ (Binding.Related Twin) bs cs) :
    runEntries s (bs.map Binding.entry) = runEntries s (cs.map Binding.entry) := by
  induction h with
  | nil => rfl
  | cons first _ ih =>
    rw [List.map_cons, List.map_cons, runEntries, runEntries, ih, runEntry_congr s first]

theorem conditionOf_congr {bs cs : List Binding} (h : List.Forall₂ (Binding.Related Twin) bs cs) :
    conditionOf s (bs.map Binding.entry) = conditionOf s (cs.map Binding.entry) := by
  induction h with
  | nil => rfl
  | cons first _ ih =>
    obtain ⟨keyword, rule, related⟩ := first
    rw [List.map_cons, List.map_cons, Binding.entry, Binding.entry]
    cases related with
    | node twin => simp only [conditionOf, twin.1, ih]
    | _ =>
      rw [conditionOf, conditionOf, ih]
      all_goals simp

/-- A run goes through the bindings of a node alone. -/
theorem runEntries_bindings (n : Node) :
    runEntries s n.entries = runEntries s (n.bindings.map Binding.entry) := by
  unfold Node.bindings
  induction n.entries with
  | nil => rfl
  | cons e es ih =>
    obtain ⟨keyword, p, _ | rule⟩ := e
    · rw [runEntries, runEntry, ih, Logged.pure_bind, if_neg (by simp)]
      exact Logged.bind_pure _
    · rw [runEntries, ih]
      rfl

theorem conditionOf_bindings (n : Node) :
    conditionOf s n.entries = conditionOf s (n.bindings.map Binding.entry) := by
  unfold Node.bindings
  induction n.entries with
  | nil => rfl
  | cons e es ih =>
    obtain ⟨keyword, p, _ | rule⟩ := e
    · rw [conditionOf, ih]
      · rfl
      · simp
    · cases p with
      | node m => simp only [conditionOf, ih, List.filterMap_cons, Entry.rule, Option.map_some,
          List.map_cons, Binding.entry, Entry.keyword, Entry.param]
      | _ =>
        rw [conditionOf, ih]
        · rfl
        · simp

end

theorem evaluate_of_alike {n m : Node} (h : n.Alike m) (s : Subject) :
    evaluate s n = evaluate s m := by
  induction n using Node.induction generalizing m s with
  | step n ih =>
    have twins : List.Forall₂ (Binding.Related Twin) n.bindings m.bindings := by
      refine forall₂_imp_of_mem h.bindings ?_
      rintro _ hb _ hc ⟨keyword, rule, related⟩
      refine .intro keyword rule (related.imp_of_mem fun a ha b _ alike => ?_)
      exact ⟨fun s => ih a (Node.mem_subnodes_of_binding hb ha) alike s, alike.hasRules_eq⟩
    have enter : s.enter n.entries n.patterns = s.enter m.entries m.patterns := by
      have declared : Node.declaredIn n.entries = Node.declaredIn m.entries := h.declared
      simp only [Subject.enter, declared, h.patterns]
    rw [evaluate_eq, evaluate_eq, enter, conditionOf_bindings, conditionOf_bindings _ m,
      conditionOf_congr _ twins]
    simp only [runEntries_bindings, runEntries_congr _ twins]

end Conform.Rules
