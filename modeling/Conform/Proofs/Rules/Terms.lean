import Conform.Proofs.Rules.Walk
import Conform.Proofs.Schema.Vocabulary
import Conform.Proofs.Tree.Alike

/-! The terms of a run: its mode, its formats, and whether it allows unknown members. They are
handed on unchanged to every node of a tree, and only two built-in rules look at them. Trees in which
these two end alike under one run's terms and another's end alike as a whole. -/
namespace Conform.Rules

/-- What a run is told once, for all nodes. -/
structure Terms where
  mode : Mode
  formats : Listing Checker
  allowUnknown : Bool

def Subject.on (s : Subject) (t : Terms) : Subject :=
  { s with frame := { s.frame with
      mode := t.mode, formats := t.formats, allowUnknown := t.allowUnknown } }

section

variable {α β ε : Type} {stop : Bool}

theorem result_gather_congr {x y : Logged ε (List Finding)}
    {f g : Unit → Logged ε (List Finding)} (first : x.result = y.result)
    (rest : (f ()).result = (g ()).result) :
    (gather stop x f).result = (gather stop y g).result := by
  rw [result_gather, result_gather, first, rest]

theorem result_gatherAll_congr {f g : α → Logged ε (List Finding)} {as : List α}
    (h : ∀ a ∈ as, (f a).result = (g a).result) :
    (gatherAll stop f as).result = (gatherAll stop g as).result := by
  induction as with
  | nil => rfl
  | cons a as ih =>
    rw [List.forall_mem_cons] at h
    exact result_gather_congr h.1 (ih h.2)

theorem result_map_congr {x y : Logged ε α} (f : α → β) (h : x.result = y.result) :
    (x.map f).result = (y.map f).result := by
  rw [Logged.result_map, Logged.result_map, h]

theorem result_lift_congr {x y : Evaluating α} (h : x.result = y.result) :
    (lift x).result = (lift y).result := by
  rw [result_lift, result_lift, h]

end

/-- Nodes that no rule above them can tell apart, the one run on some terms and the other on
others. -/
structure Concur (t u : Terms) (n m : Node) : Prop where
  result : ∀ s : Subject, (evaluate (s.on t) n).result = (evaluate (s.on u) m).result
  rules : n.hasRules = m.hasRules

/-- A rule that ends alike with two parameters. -/
def RuleConcurs (t u : Terms) (k : Keyword) (p q : Param) : Prop :=
  ∀ s : Subject, (runRule (s.on t) k p).result = (runRule (s.on u) k q).result

variable {t u : Terms} {n m : Node} {ns ms : List Node}

section

variable (s : Subject)

theorem result_runProperties_eq (members : List (String × Value)) {ns ms : List (String × Node)}
    (h : List.Forall₂ (Named (Concur t u)) ns ms) :
    (runProperties (s.on t) members ns).result = (runProperties (s.on u) members ms).result := by
  induction h with
  | nil => rfl
  | cons first _ ih =>
    obtain ⟨name, concur⟩ := first
    rw [runProperties, runProperties]
    cases Listing.get? name members with
    | none => exact ih
    | some v => exact result_gather_congr (concur.result (s.into (.member name) v)) ih

theorem result_runMatching_eq (name : String) (ps : List Pattern) {ns ms : List (String × Node)}
    (h : List.Forall₂ (Named (Concur t u)) ns ms) :
    (runMatching (s.on t) name ps ns).result = (runMatching (s.on u) name ps ms).result := by
  induction h generalizing ps with
  | nil => cases ps <;> rfl
  | cons first _ ih =>
    obtain ⟨key, concur⟩ := first
    cases ps with
    | nil => rfl
    | cons p ps =>
      rw [runMatching, runMatching]
      split
      · exact result_gather_congr (concur.result s) (ih ps)
      · exact ih ps

theorem readPatterns_on (names : List String) :
    readPatterns (s.on t) names = readPatterns (s.on u) names := by
  induction names with
  | nil => rfl
  | cons name names ih =>
    rw [readPatterns, readPatterns, ih]
    rfl

theorem result_runItems_eq (i : Nat) (xs : List Value) (h : List.Forall₂ (Concur t u) ns ms) :
    (runItems (s.on t) i xs ns).result = (runItems (s.on u) i xs ms).result := by
  induction h generalizing i xs with
  | nil => cases xs <;> rfl
  | cons concur _ ih =>
    cases xs with
    | nil => rfl
    | cons x xs =>
      rw [runItems, runItems]
      exact result_gather_congr (concur.result (s.into (.element i) x)) (ih (i + 1) xs)

theorem result_runDependency_eq (members : List (String × Value)) (name : String) (v : Value)
    {d e : Dependency} (h : d.Related (Concur t u) e) :
    (runDependency (s.on t) members name v d).result =
      (runDependency (s.on u) members name v e).result := by
  cases h with
  | names | unusable => rfl
  | node concur =>
    rw [runDependency, runDependency]
    exact result_map_congr _ (result_lift_congr
      (concur.result (s.into (.member name) v).stopping))

theorem result_runDependencies_eq (members : List (String × Value))
    {ds es : List (String × Dependency)}
    (h : List.Forall₂ (Named (Dependency.Related (Concur t u))) ds es) :
    (runDependencies (s.on t) members ds).result =
      (runDependencies (s.on u) members es).result := by
  induction h with
  | nil => rfl
  | cons first _ ih =>
    obtain ⟨name, related⟩ := first
    rw [runDependencies, runDependencies]
    cases Listing.get? name members with
    | none => exact ih
    | some v => exact result_gather_congr (result_runDependency_eq s members name v related) ih

theorem result_runConjunction_eq (i : Nat) (h : List.Forall₂ (Concur t u) ns ms) :
    (runConjunction (s.on t) i ns).result = (runConjunction (s.on u) i ms).result := by
  induction h generalizing i with
  | nil => rfl
  | cons concur _ ih =>
    rw [runConjunction, runConjunction]
    exact result_gather_congr (result_map_congr _ (concur.result (branchAt s i))) (ih (i + 1))

theorem result_holdsSome_eq (h : List.Forall₂ (Concur t u) ns ms) :
    (holdsSome (s.on t) ns).result = (holdsSome (s.on u) ms).result := by
  induction h with
  | nil => rfl
  | @cons n m _ _ concur _ ih =>
    rw [holdsSome, holdsSome, Logged.result_bind, Logged.result_bind]
    have first : (evaluate (s.on t).stopping n).result = (evaluate (s.on u).stopping m).result :=
      concur.result s.stopping
    rw [first]
    congr 1
    funext found
    split
    · rfl
    · exact ih

theorem result_countHolding_eq (h : List.Forall₂ (Concur t u) ns ms) :
    (countHolding (s.on t) ns).result = (countHolding (s.on u) ms).result := by
  induction h with
  | nil => rfl
  | @cons n m _ _ concur _ ih =>
    rw [countHolding, countHolding, Logged.result_bind, Logged.result_bind]
    have first : (evaluate (s.on t).stopping n).result = (evaluate (s.on u).stopping m).result :=
      concur.result s.stopping
    rw [first]
    congr 1
    funext found
    rw [Logged.result_bind, Logged.result_bind, ih]

end

theorem concurs_properties {ns ms : List (String × Node)}
    (h : List.Forall₂ (Named (Concur t u)) ns ms) :
    RuleConcurs t u .properties (.named ns) (.named ms) := by
  rintro ⟨frame, value, path⟩
  rw [runRule, runRule]
  cases value with
  | object a members => exact result_lift_congr (result_runProperties_eq _ members h)
  | _ => rfl

theorem concurs_patternProperties {ns ms : List (String × Node)}
    (h : List.Forall₂ (Named (Concur t u)) ns ms) :
    RuleConcurs t u .patternProperties (.named ns) (.named ms) := by
  have names := map_eq_map_of_forall₂ (f := (·.1)) (g := (·.1)) h fun _ _ h => (Named.iff.mp h).1
  rintro ⟨frame, value, path⟩
  rw [runRule, runRule]
  cases value with
  | object a members =>
    let s : Subject := ⟨frame, .object a members, path⟩
    change (readPatterns (s.on t) _ >>= _).result = (readPatterns (s.on u) _ >>= _).result
    rw [readPatterns_on s (t := t) (u := u), names, Logged.result_bind, Logged.result_bind]
    congr 1
    funext ps
    refine result_lift_congr (result_gatherAll_congr fun member _ => ?_)
    exact result_runMatching_eq (s.into (.member member.1) member.2) member.1 ps h
  | _ => rfl

theorem concurs_additional (h : Concur t u n m) :
    RuleConcurs t u .additionalProperties (.node n) (.node m) := by
  rintro ⟨frame, value, path⟩
  rw [runRule, runRule]
  cases value with
  | object a members =>
    let s : Subject := ⟨frame, .object a members, path⟩
    refine result_lift_congr (result_gatherAll_congr fun member _ => ?_)
    exact result_map_congr _ (h.result (s.into (.member member.1) member.2).stopping)
  | _ => rfl

theorem concurs_items (h : Concur t u n m) : RuleConcurs t u .items (.node n) (.node m) := by
  rintro ⟨frame, value, path⟩
  rw [runRule, runRule]
  cases value with
  | array a xs =>
    let s : Subject := ⟨frame, .array a xs, path⟩
    exact result_lift_congr (result_gatherAll_congr fun x _ => h.result (s.into (.element x.2) x.1))
  | _ => rfl

theorem concurs_elements (h : List.Forall₂ (Concur t u) ns ms) :
    RuleConcurs t u .items (.nodes ns) (.nodes ms) := by
  rintro ⟨frame, value, path⟩
  rw [runRule, runRule]
  cases value with
  | array a xs => exact result_lift_congr (result_runItems_eq _ 0 xs h)
  | _ => rfl

theorem concurs_dependencies {ds es : List (String × Dependency)}
    (h : List.Forall₂ (Named (Dependency.Related (Concur t u))) ds es) :
    RuleConcurs t u .dependencies (.dependencies ds) (.dependencies es) := by
  rintro ⟨frame, value, path⟩
  rw [runRule, runRule]
  cases value with
  | object a members => exact result_runDependencies_eq _ members h
  | _ => rfl

theorem concurs_branches {c : Combinator} (h : List.Forall₂ (Concur t u) ns ms) :
    RuleConcurs t u (.combine c) (.nodes ns) (.nodes ms) := by
  intro s
  cases h with
  | nil => cases c <;> rfl
  | cons first rest =>
    have both := List.Forall₂.cons first rest
    cases c with
    | allOf =>
      rw [runRule, runRule]
      exact result_lift_congr (result_runConjunction_eq s 0 both)
    | anyOf =>
      rw [runRule, runRule]
      exact result_map_congr _ (result_lift_congr (result_holdsSome_eq s both))
    | oneOf =>
      rw [runRule, runRule]
      exact result_map_congr _ (result_lift_congr (result_countHolding_eq s both))

theorem concurs_negation (h : Concur t u n m) : RuleConcurs t u .negation (.node n) (.node m) := by
  intro s
  rw [runRule, runRule, h.rules]
  split
  · refine result_map_congr _ (result_lift_congr ?_)
    have inner : (evaluate (s.on t).stopping n).result = (evaluate (s.on u).stopping m).result :=
      h.result s.stopping
    simp only [Logged.recover, Logged.result_map, inner]
    split <;> rfl
  · rfl

theorem concurs_clause {c : Clause} (h : Concur t u n m) :
    RuleConcurs t u (.clause c) (.node n) (.node m) := by
  intro s
  rw [runRule, runRule]
  change (if clauseApplies c s.frame.condition then _ else _ : Checking _).result =
    (if clauseApplies c s.frame.condition then _ else _ : Checking _).result
  split
  · exact result_map_congr _ (result_lift_congr (h.result s.stopping))
  · rfl

/-- Of what has no schema in it, only a format and a closed object hang on the terms. -/
theorem concurs_plain {k : Keyword} {v : Value}
    (format : k = .format → ∀ s : Subject,
      (checkFormat (s.on t) v).result = (checkFormat (s.on u) v).result)
    (closed : k = .additionalProperties → v = .bool false → t.allowUnknown = u.allowUnknown) :
    RuleConcurs t u k (.plain v) (.plain v) := by
  intro s
  cases k with
  | format => exact format rfl s
  | additionalProperties =>
    cases v with
    | bool b =>
      cases b with
      | true => rfl
      | false =>
        have same : s.on t = { s.on u with frame := { (s.on u).frame with
            mode := t.mode, formats := t.formats } } := by
          simp only [Subject.on, closed rfl rfl]
        rw [same]
        rfl
    | _ => rfl
  | combine c => cases c <;> rfl
  | _ => rfl

/-- A built-in rule above nodes that concur. -/
theorem concurs_of_related {k : Keyword} {p q : Param} (h : p.Related (Concur t u) q)
    (plain : ∀ v, p = .plain v → RuleConcurs t u k (.plain v) (.plain v)) :
    RuleConcurs t u k p q := by
  cases h with
  | plain v => exact plain v rfl
  | node concur =>
    cases k with
    | additionalProperties => exact concurs_additional concur
    | items => exact concurs_items concur
    | negation => exact concurs_negation concur
    | clause c => exact concurs_clause concur
    | combine c => cases c <;> exact fun _ => rfl
    | _ => exact fun _ => rfl
  | nodes concur =>
    cases k with
    | items => exact concurs_elements concur
    | combine c => exact concurs_branches concur
    | _ => exact fun _ => rfl
  | named concur =>
    cases k with
    | properties => exact concurs_properties concur
    | patternProperties => exact concurs_patternProperties concur
    | combine c => cases c <;> exact fun _ => rfl
    | _ => exact fun _ => rfl
  | dependencies concur =>
    cases k with
    | dependencies => exact concurs_dependencies concur
    | combine c => cases c <;> exact fun _ => rfl
    | _ => exact fun _ => rfl

/-- Entries under one key that end alike: without a rule, with related parameters, or with flags in
the place of schemas. -/
inductive EntriesConcur (t u : Terms) : Entry → Entry → Prop
  | kept (key : String) (p : Param) : EntriesConcur t u (.mk key p none) (.mk key p none)
  | ruled (k : Keyword) {p q : Param} (params : p.Related (Concur t u) q)
    (rule : RuleConcurs t u k p q) :
    EntriesConcur t u (.mk k.name p (some (.of k))) (.mk k.name q (some (.of k)))
  | flag (k : Keyword) {b c : Bool} (rule : RuleConcurs t u k (.plain (.bool b)) (.plain (.bool c))) :
    EntriesConcur t u (.mk k.name (.plain (.bool b)) (some (.of k)))
      (.mk k.name (.plain (.bool c)) (some (.of k)))

variable {es fs : List Entry}

theorem names?_of_concur (h : List.Forall₂ (EntriesConcur t u) es fs) (key : String) :
    (Node.paramIn? key es).bind Param.names? = (Node.paramIn? key fs).bind Param.names? := by
  have cons {own : String} {p q : Param} {r : Option Rule} {es fs : List Entry}
      (names : p.names? = q.names?)
      (rest : (Node.paramIn? key es).bind Param.names? = (Node.paramIn? key fs).bind Param.names?) :
      (Node.paramIn? key (.mk own p r :: es)).bind Param.names? =
        (Node.paramIn? key (.mk own q r :: fs)).bind Param.names? := by
    by_cases same : own = key
    · simpa [Node.paramIn?, Entry.keyword, Entry.param, same] using names
    · simpa [Node.paramIn?, Entry.keyword, same] using rest
  induction h with
  | nil => rfl
  | cons first _ ih =>
    cases first with
    | kept => exact cons rfl ih
    | ruled k params => exact cons params.names?_eq ih
    | flag => exact cons rfl ih

theorem hasRules_of_concur {mode mode' : Mode} {ps qs : List Pattern}
    {notes notes' : List (String × Value)} (h : List.Forall₂ (EntriesConcur t u) es fs) :
    (Node.mk mode es ps notes).hasRules = (Node.mk mode' fs qs notes').hasRules := by
  show es.any (·.rule.isSome) = fs.any (·.rule.isSome)
  induction h with
  | nil => rfl
  | cons first _ ih =>
    rw [List.any_cons, List.any_cons, ih]
    cases first <;> rfl

theorem result_conditionOf_on (h : List.Forall₂ (EntriesConcur t u) es fs) (s : Subject) :
    (conditionOf (s.on t) es).result = (conditionOf (s.on u) fs).result := by
  induction h with
  | nil => rfl
  | cons first _ ih =>
    cases first with
    | kept | flag => simpa [conditionOf] using ih
    | ruled k params =>
      cases params with
      | node concur =>
        rw [conditionOf, conditionOf]
        split
        · exact result_map_congr _ (concur.result s.stopping)
        · exact ih
      | _ => simpa [conditionOf] using ih

theorem result_runEntries_on (h : List.Forall₂ (EntriesConcur t u) es fs) (s : Subject) :
    (runEntries (s.on t) es).result = (runEntries (s.on u) fs).result := by
  induction h with
  | nil => rfl
  | @cons e f _ _ first _ ih =>
    have same : (runEntry (s.on t) e).result = (runEntry (s.on u) f).result := by
      cases first with
      | kept => rw [runEntry, runEntry]
      | ruled k _ rule | flag k rule =>
        rw [runEntry, runEntry, result_settle, result_settle]
        simp only [Rule.of, rule s]
        rfl
    rw [result_runEntries_cons, result_runEntries_cons, same, ih]
    rfl

/-- Nodes concur where their entries do, each in its place. -/
theorem concur_of_entries {mode mode' : Mode} {ps : List Pattern}
    {notes notes' : List (String × Value)} (h : List.Forall₂ (EntriesConcur t u) es fs) :
    Concur t u (.mk mode es ps notes) (.mk mode' fs ps notes') := by
  refine ⟨fun s => ?_, hasRules_of_concur h⟩
  -- what a node declares is handed to its rules beside the terms, and it is the same for both
  have declared : Node.declaredIn es = Node.declaredIn fs := by
    rw [Node.declaredIn, Node.declaredIn, names?_of_concur h]
  have enter : (s.on t).enter es ps = (s.enter fs ps).on t := by
    simp only [Subject.enter, declared]
    rfl
  rw [evaluate, evaluate]
  change (conditionOf ((s.on t).enter es ps) es >>= fun condition =>
      runEntries (((s.on t).enter es ps).under condition) es).result =
    (conditionOf ((s.enter fs ps).on u) fs >>= fun condition =>
      runEntries (((s.enter fs ps).under condition).on u) fs).result
  rw [enter, Logged.result_bind, Logged.result_bind, result_conditionOf_on h]
  congr 1
  funext condition
  exact result_runEntries_on h ((s.enter fs ps).under condition)

end Conform.Rules
