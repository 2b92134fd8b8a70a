import Conform.Proofs.Rules.Cut
import Conform.Proofs.Schema.Inversion

/-! Both runs of a built-in rule. Above nodes whose runs relate, what a rule finds to the end and
what it finds when stopped relate as well. -/
namespace Conform.Rules

/-- The same subject in a run that gives all findings. -/
def Subject.exhaustive (s : Subject) : Subject :=
  { s with frame := { s.frame with stopAtFirst := false } }

variable {s : Subject}

/-- What only asks whether a node holds runs alike in both. -/
theorem holdsSome_exhaustive (ns : List Node) :
    holdsSome s.exhaustive ns = holdsSome s.stopping ns := by
  induction ns with
  | nil => simp [holdsSome]
  | cons n ns ih =>
    rw [holdsSome, holdsSome, ih]
    rfl

theorem countHolding_exhaustive (ns : List Node) :
    countHolding s.exhaustive ns = countHolding s.stopping ns := by
  induction ns with
  | nil => simp [countHolding]
  | cons n ns ih =>
    rw [countHolding, countHolding, ih]
    rfl

theorem readPatterns_exhaustive (names : List String) :
    readPatterns s.exhaustive names = readPatterns s.stopping names := by
  induction names with
  | nil => rfl
  | cons name names ih =>
    rw [readPatterns, readPatterns, ih]
    rfl

theorem conditionOf_exhaustive (es : List Entry) :
    conditionOf s.exhaustive es = conditionOf s.stopping es := by
  rw [conditionOf_eq, conditionOf_eq]
  rfl

/-- Both runs of a node relate, wherever and on whatever value it is run. -/
def Cuts (n : Node) : Prop :=
  ∀ s : Subject, FaultCut (evaluate s.exhaustive n).result (evaluate s.stopping n).result

/-- A walk over the evaluations of nodes. -/
theorem cut_lift_gatherAll {α : Type} {f g : α → Evaluating (List Finding)} {as : List α}
    (h : ∀ a ∈ as, FaultCut (f a).result (g a).result) :
    BreakCut (lift (gatherAll false f as)).result (lift (gatherAll true g as)).result :=
  FaultCut.lift (Cut.gatherAll h fun _ _ _ _ => trivial)

theorem cut_runDependency {ms : List (String × Value)} {name : String} {v : Value}
    {d : Dependency} : BreakCut (runDependency s.exhaustive ms name v d).result
      (runDependency s.stopping ms name v d).result := by
  cases d <;> rw [runDependency, runDependency] <;> exact .refl _

theorem hard_of_runDependency {ms : List (String × Value)} {name : String} {v : Value}
    {d : Dependency} (usable : ∀ w, d ≠ .unusable w) {e : Break}
    (h : (runDependency s ms name v d).result = .error e) : e.Hard := by
  cases d with
  | names =>
    rw [runDependency] at h
    cases h
  | node n =>
    rw [runDependency, Logged.result_map, result_lift] at h
    cases hx : (evaluate (s.into (.member name) v).stopping n).result with
    | ok => simp [hx, Except.mapError, Except.map] at h
    | error f =>
      rw [hx] at h
      cases h
      exact trivial
  | unusable w => exact absurd rfl (usable w)

theorem cut_runDependencies {ms : List (String × Value)} {ds : List (String × Dependency)}
    (usable : ∀ d ∈ ds, ∀ v, d.2 ≠ .unusable v) :
    BreakCut (runDependencies s.exhaustive ms ds).result
      (runDependencies s.stopping ms ds).result := by
  rw [runDependencies_eq, runDependencies_eq]
  refine Cut.gatherAll (fun t _ => cut_runDependency) fun t ht e he => ?_
  exact hard_of_runDependency (usable _ (mem_present.mp ht).1) he

theorem cut_runProperties {ms : List (String × Value)} {ns : List (String × Node)}
    (ih : ∀ t ∈ ns, Cuts t.2) :
    BreakCut (lift (runProperties s.exhaustive ms ns)).result
      (lift (runProperties s.stopping ms ns)).result := by
  rw [runProperties_eq, runProperties_eq]
  exact cut_lift_gatherAll fun t ht =>
    ih _ (mem_present.mp ht).1 (s.into (.member t.1) t.2.2)

theorem cut_runMatching {name : String} {ps : List Pattern} {ns : List (String × Node)}
    (ih : ∀ t ∈ ns, Cuts t.2) :
    FaultCut (runMatching s.exhaustive name ps ns).result
      (runMatching s.stopping name ps ns).result := by
  rw [runMatching_eq, runMatching_eq]
  refine Cut.gatherAll (fun n hn => ?_) fun _ _ _ _ => trivial
  obtain ⟨p, key, ht, -⟩ := mem_matching.mp hn
  exact ih _ (List.of_mem_zip ht).2 s

theorem cut_runItems {xs : List Value} {ns : List Node} (ih : ∀ n ∈ ns, Cuts n) :
    BreakCut (lift (runItems s.exhaustive 0 xs ns)).result
      (lift (runItems s.stopping 0 xs ns)).result := by
  rw [runItems_eq, runItems_eq]
  refine cut_lift_gatherAll fun t ht => ?_
  have inBoth := List.of_mem_zip (List.fst_mem_of_mem_zipIdx ht)
  exact ih _ inBoth.2 (s.into (.element t.2) t.1.1)

/-- Both runs of a built-in rule relate. -/
abbrev RuleCut (s : Subject) (k : Keyword) (p : Param) : Prop :=
  BreakCut (runRule s.exhaustive k p).result (runRule s.stopping k p).result

theorem cut_properties {ns : List (String × Node)} (ih : ∀ t ∈ ns, Cuts t.2) :
    RuleCut s .properties (.named ns) := by
  obtain ⟨frame, value, path⟩ := s
  unfold RuleCut
  rw [runRule, runRule]
  cases value with
  | object a ms => exact cut_runProperties (s := ⟨frame, .object a ms, path⟩) ih
  | _ => exact .refl _

theorem cut_patternProperties {ns : List (String × Node)} (ih : ∀ t ∈ ns, Cuts t.2) :
    RuleCut s .patternProperties (.named ns) := by
  obtain ⟨frame, value, path⟩ := s
  unfold RuleCut
  rw [runRule, runRule]
  cases value with
  | object a ms =>
    let s : Subject := ⟨frame, .object a ms, path⟩
    change BreakCut (readPatterns s.exhaustive _ >>= _).result
      (readPatterns s.stopping _ >>= _).result
    rw [readPatterns_exhaustive]
    refine Cut.of_bind fun ps hps => cut_lift_gatherAll fun m hm => ?_
    exact cut_runMatching (s := s.into (.member m.1) m.2) ih
  | _ => exact .refl _

theorem cut_closed : RuleCut s .additionalProperties (.plain (.bool false)) := by
  obtain ⟨frame, value, path⟩ := s
  unfold RuleCut
  rw [runRule, runRule]
  cases value with
  | object a ms =>
    change BreakCut (if frame.allowUnknown then pure [] else pure _ : Checking _).result
      (if frame.allowUnknown then pure [] else pure (List.take 1 _) : Checking _).result
    split
    · exact .refl _
    · exact .alike List.head?_take
  | _ => exact .refl _

/-- What lies behind an unknown member is run to its first finding in any case. -/
theorem cut_additional {n : Node} : RuleCut s .additionalProperties (.node n) := by
  obtain ⟨frame, value, path⟩ := s
  unfold RuleCut
  rw [runRule, runRule]
  cases value with
  | object a ms => exact cut_lift_gatherAll fun m _ => .refl _
  | _ => exact .refl _

theorem cut_items {n : Node} (ih : Cuts n) : RuleCut s .items (.node n) := by
  obtain ⟨frame, value, path⟩ := s
  unfold RuleCut
  rw [runRule, runRule]
  cases value with
  | array a xs =>
    let s : Subject := ⟨frame, .array a xs, path⟩
    exact cut_lift_gatherAll fun x _ => ih (s.into (.element x.2) x.1)
  | _ => exact .refl _

theorem cut_elements {ns : List Node} (ih : ∀ n ∈ ns, Cuts n) : RuleCut s .items (.nodes ns) := by
  obtain ⟨frame, value, path⟩ := s
  unfold RuleCut
  rw [runRule, runRule]
  cases value with
  | array a xs => exact cut_runItems (s := ⟨frame, .array a xs, path⟩) ih
  | _ => exact .refl _

theorem cut_dependencies {ds : List (String × Dependency)}
    (usable : ∀ d ∈ ds, ∀ v, d.2 ≠ .unusable v) :
    RuleCut s .dependencies (.dependencies ds) := by
  obtain ⟨frame, value, path⟩ := s
  unfold RuleCut
  rw [runRule, runRule]
  cases value with
  | object a ms => exact cut_runDependencies (s := ⟨frame, .object a ms, path⟩) usable
  | _ => exact .refl _

theorem cut_branches {c : Combinator} {n : Node} {ns : List Node} :
    RuleCut s (.combine c) (.nodes (n :: ns)) := by
  unfold RuleCut
  cases c with
  | allOf =>
    rw [runRule, runRule, runConjunction_eq, runConjunction_eq]
    exact cut_lift_gatherAll fun t _ => .refl _
  | anyOf =>
    rw [runRule, runRule, holdsSome_exhaustive]
    exact .refl _
  | oneOf =>
    rw [runRule, runRule, countHolding_exhaustive]
    exact .refl _

/-- A built-in rule, given that the nodes in its parameter behave. -/
theorem cut_runRule {k : Keyword} {p : Param} (usable : p.Usable)
    (ih : ∀ n ∈ p.subnodes, Cuts n) : RuleCut s k p := by
  cases k with
  | properties =>
    cases p with
    | named ns => exact cut_properties fun t ht => ih _ (List.mem_map_of_mem ht)
    | _ => exact .refl _
  | patternProperties =>
    cases p with
    | named ns => exact cut_patternProperties fun t ht => ih _ (List.mem_map_of_mem ht)
    | _ => exact .refl _
  | additionalProperties =>
    cases p with
    | plain v =>
      cases v with
      | bool b =>
        cases b with
        | true => exact .refl _
        | false => exact cut_closed
      | _ => exact .refl _
    | node n => exact cut_additional
    | _ => exact .refl _
  | items =>
    cases p with
    | node n => exact cut_items (ih n (.head _))
    | nodes ns => exact cut_elements ih
    | _ => exact .refl _
  | dependencies =>
    cases p with
    | dependencies ds => exact cut_dependencies usable
    | _ => exact .refl _
  | combine c =>
    cases p with
    | nodes ns =>
      cases ns with
      | nil => cases c <;> exact .refl _
      | cons n ns => exact cut_branches
    | _ => cases c <;> exact .refl _
  -- no other rule looks at whether the run stops
  | _ => cases p <;> exact .refl _

end Conform.Rules
