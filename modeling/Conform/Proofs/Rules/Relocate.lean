import Conform.Proofs.Rules.Mirror

/-! Running at the end of another path. A run does not look at the path that it is given, it only
goes on from it: at the end of another path the same findings come in the same order, each of them
moved along. -/
namespace Conform

/-- The same steps, taken from the end of another path instead of from the root. -/
def Path.onto (p base : Path) : Path := ⟨base.root, base.steps ++ p.steps⟩

theorem Path.onto_child (p base : Path) (step : Step) :
    (p.child step).onto base = (p.onto base).child step :=
  congrArg (Path.mk base.root) (List.append_assoc ..).symm

def Finding.onto (base : Path) (f : Finding) : Finding := { f with path := f.path.onto base }

theorem Finding.onto_child (base p : Path) (step : Step) (reason : Reason) (tag : String)
    (value : Value) (param : Option String) :
    (⟨(p.onto base).child step, reason, tag, value, param⟩ : Finding) =
      Finding.onto base ⟨p.child step, reason, tag, value, param⟩ := by
  rw [← Path.onto_child]
  rfl

def Verdict.onto (base : Path) : Verdict → Verdict
  | .violated found => .violated (found.map (Finding.onto base))
  | v => v

/-- A rule that only passes the path on to its findings, as far as this path is concerned. -/
def CustomRule.Follows (base : Path) (r : CustomRule) : Prop :=
  ∀ call : Call, r.apply { call with path := call.path.onto base } = (r.apply call).onto base

def Handler.Follows (base : Path) : Handler → Prop
  | .builtin _ => True
  | .custom r => r.Follows base

namespace Rules

def Subject.onto (base : Path) (s : Subject) : Subject :=
  { s with path := s.path.onto base }

namespace Subject

variable (base : Path) (s : Subject)

@[simp] theorem onto_frame : (s.onto base).frame = s.frame := rfl

@[simp] theorem onto_value : (s.onto base).value = s.value := rfl

@[simp] theorem finding_onto (tag : String) (reason : Reason) (param : Option String) :
    (s.onto base).finding tag reason param =
      (s.finding tag reason param).map (Finding.onto base) := rfl

theorem onto_into (step : Step) (v : Value) :
    (s.onto base).into step v = (s.into step v).onto base := by
  simp only [Subject.into, Subject.onto, Path.onto_child]

end Subject

section Leaves

variable {base : Path} {s : Subject}

theorem guard_map {c : Prop} [Decidable c] {g : Finding → Finding} (found : List Finding) :
    (if c then [] else found.map g) = (if c then [] else found).map g := by
  split
  · rfl
  · rfl

theorem checkType_onto (v : Value) :
    checkType (s.onto base) v = (checkType s v).map (Finding.onto base) := by
  simp only [checkType, Subject.onto_value, Subject.finding_onto]
  exact guard_map _

theorem checkBound_onto (b : Bound) (v : Value) :
    checkBound b (s.onto base) v = (checkBound b s v).map (Finding.onto base) := by
  simp only [checkBound, Subject.onto_value, Subject.finding_onto]
  split
  · rfl
  · rfl
  · exact guard_map _

theorem checkMultipleOf_onto (v : Value) :
    checkMultipleOf (s.onto base) v = (checkMultipleOf s v).map (Finding.onto base) := by
  simp only [checkMultipleOf, Subject.onto_value, Subject.finding_onto]
  split
  · rfl
  · split
    · rfl
    · split
      · rfl
      · split
        · rfl
        · rfl

theorem checkLimit_onto (l : Limit) (v : Value) :
    checkLimit l (s.onto base) v = (checkLimit l s v).map (Finding.onto base) := by
  simp only [checkLimit, Subject.onto_value, Subject.finding_onto]
  split
  · rfl
  · split
    · rfl
    · split
      · rfl
      · exact guard_map _

theorem checkPattern_onto (v : Value) :
    RuleMirrors (Finding.onto base) (checkPattern s v).result
      (checkPattern (s.onto base) v).result := by
  simp only [checkPattern, Subject.onto_value, Subject.finding_onto]
  split
  · split
    · exact .ok (guard_map _)
    · split
      · exact .ok rfl
      · exact .error (.breakdown _ _)
  · exact .ok rfl
  · exact .ok rfl

theorem checkUniqueItems_onto (v : Value) :
    checkUniqueItems (s.onto base) v = (checkUniqueItems s v).map (Finding.onto base) := by
  simp only [checkUniqueItems, Subject.onto_value, Subject.finding_onto]
  split
  · rfl
  · exact guard_map _
  · rfl
  · rfl

theorem checkEnum_onto (v : Value) :
    checkEnum (s.onto base) v = (checkEnum s v).map (Finding.onto base) := by
  simp only [checkEnum, Subject.onto_value, Subject.finding_onto]
  exact guard_map _

theorem checkFormat_onto (v : Value) :
    RuleMirrors (Finding.onto base) (checkFormat s v).result
      (checkFormat (s.onto base) v).result := by
  simp only [checkFormat, Subject.onto_value, Subject.onto_frame, Subject.finding_onto]
  split
  · split
    · split
      · exact .nil
      · exact .ok rfl
      · exact .error (.breakdown _ _)
    · split
      · exact .nil
      · exact .ok rfl
      · exact .ok rfl
  · exact .ok rfl
  · exact .ok rfl

theorem checkRequired_onto (v : Value) :
    checkRequired (s.onto base) v = (checkRequired s v).map (Finding.onto base) := by
  simp only [checkRequired, Subject.onto_value, Subject.finding_onto]
  split
  · rw [List.map_map]
    exact List.map_congr_left fun _ _ => Finding.onto_child ..
  · rfl

theorem countVerdict_onto (c : Combinator) (holding : Nat) :
    countVerdict c (s.onto base) holding =
      (countVerdict c s holding).map (Finding.onto base) := by
  unfold countVerdict
  split
  · rfl
  · rfl
  · rfl

end Leaves

/-- A node whose runs at a path and at the end of another mirror each other. -/
def Relocates (base : Path) (n : Node) : Prop :=
  ∀ s : Subject,
    NodeMirrors (Finding.onto base) (evaluate s n).result (evaluate (s.onto base) n).result

theorem Relocates.into {base : Path} {n : Node} (h : Relocates base n) (s : Subject) (step : Step)
    (v : Value) : NodeMirrors (Finding.onto base) (evaluate (s.into step v) n).result
      (evaluate ((s.onto base).into step v) n).result := by
  rw [Subject.onto_into]
  exact h _

theorem Relocates.into_stopping {base : Path} {n : Node} (h : Relocates base n) (s : Subject)
    (step : Step) (v : Value) :
    NodeMirrors (Finding.onto base) (evaluate (s.into step v).stopping n).result
      (evaluate ((s.onto base).into step v).stopping n).result := by
  rw [Subject.onto_into]
  exact h (s.into step v).stopping

section

variable {base : Path} {s : Subject} {n : Node} {ns : List Node}

theorem relocates_readPatterns (names : List String) :
    Mirrors (BreakMapped (Finding.onto base)) Eq (readPatterns s names).result
      (readPatterns (s.onto base) names).result := by
  induction names with
  | nil => exact .ok rfl
  | cons name names ih =>
    rw [readPatterns, readPatterns]
    split
    · apply ih.of_bind
      rintro ps _ rfl
      exact .ok rfl
    · split
      · exact .error (.replaced _)
      · exact .error (.breakdown _ _)

theorem relocates_holdsSome (below : ∀ m ∈ ns, Relocates base m) :
    Mirrors (fun _ _ : Fault => True) Eq (holdsSome s ns).result
      (holdsSome (s.onto base) ns).result := by
  induction ns with
  | nil =>
    rw [holdsSome, holdsSome]
    exact .ok rfl
  | cons n ns ih =>
    rw [List.forall_mem_cons] at below
    rw [holdsSome, holdsSome]
    apply (below.1 s.stopping).of_bind
    rintro found _ rfl
    rw [List.isEmpty_map]
    split
    · exact .ok rfl
    · exact ih below.2

theorem relocates_countHolding (below : ∀ m ∈ ns, Relocates base m) :
    Mirrors (fun _ _ : Fault => True) Eq (countHolding s ns).result
      (countHolding (s.onto base) ns).result := by
  induction ns with
  | nil =>
    rw [countHolding, countHolding]
    exact .ok rfl
  | cons n ns ih =>
    rw [List.forall_mem_cons] at below
    rw [countHolding, countHolding]
    apply (below.1 s.stopping).of_bind
    rintro found _ rfl
    rw [List.isEmpty_map]
    apply (ih below.2).of_bind
    rintro rest _ rfl
    exact .ok rfl

/-- Both runs of a rule mirror each other. -/
abbrev RuleRelocates (base : Path) (s : Subject) (k : Keyword) (p : Param) : Prop :=
  RuleMirrors (Finding.onto base) (runRule s k p).result (runRule (s.onto base) k p).result

theorem relocates_properties {ns : List (String × Node)} (below : ∀ t ∈ ns, Relocates base t.2) :
    RuleRelocates base s .properties (.named ns) := by
  unfold RuleRelocates
  rw [runRule, runRule, Subject.onto_value]
  split
  · rw [runProperties_eq, runProperties_eq]
    apply Mirrors.lift
    apply Mirrors.gatherAll
    intro t ht
    exact (below _ (mem_present.mp ht).1).into s _ _
  · exact .nil

theorem relocates_patternProperties {ns : List (String × Node)}
    (below : ∀ t ∈ ns, Relocates base t.2) :
    RuleRelocates base s .patternProperties (.named ns) := by
  unfold RuleRelocates
  rw [runRule, runRule, Subject.onto_value]
  split
  · apply (relocates_readPatterns _).of_bind
    rintro ps _ rfl
    apply Mirrors.lift
    apply Mirrors.gatherAll
    intro m _
    rw [runMatching_eq, runMatching_eq]
    apply Mirrors.gatherAll
    intro n hn
    obtain ⟨p, key, mem, -⟩ := mem_matching.mp hn
    exact (below _ (List.of_mem_zip mem).2).into s _ _
  · exact .nil

theorem relocates_closed : RuleRelocates base s .additionalProperties (.plain (.bool false)) := by
  unfold RuleRelocates
  rw [runRule, runRule, Subject.onto_value, Subject.onto_frame]
  split
  · next ms _ =>
    have each : (extras s.frame ms).map (unknownField (s.onto base)) =
        ((extras s.frame ms).map (unknownField s)).map (Finding.onto base) := by
      rw [List.map_map]
      exact List.map_congr_left fun _ _ => Finding.onto_child ..
    rw [each]
    split
    · exact .nil
    · split
      · exact .ok List.map_take.symm
      · exact .ok rfl
  · exact .nil

theorem relocates_additional (below : Relocates base n) :
    RuleRelocates base s .additionalProperties (.node n) := by
  unfold RuleRelocates
  rw [runRule, runRule, Subject.onto_value]
  split
  · apply Mirrors.lift
    apply Mirrors.gatherAll
    intro m _
    exact (below.into_stopping s _ _).firstAs fun _ => Finding.onto_child ..
  · exact .nil

theorem relocates_items (below : Relocates base n) : RuleRelocates base s .items (.node n) := by
  unfold RuleRelocates
  rw [runRule, runRule, Subject.onto_value]
  split
  · apply Mirrors.lift
    apply Mirrors.gatherAll
    intro x _
    exact below.into s _ _
  · exact .nil

theorem relocates_elements (below : ∀ m ∈ ns, Relocates base m) :
    RuleRelocates base s .items (.nodes ns) := by
  unfold RuleRelocates
  rw [runRule, runRule, Subject.onto_value]
  split
  · rw [runItems_eq, runItems_eq]
    apply Mirrors.lift
    apply Mirrors.gatherAll
    intro t ht
    have mem := (List.of_mem_zip (List.fst_mem_of_mem_zipIdx ht)).2
    exact (below _ mem).into s _ _
  · exact .nil

theorem relocates_runDependency {ms : List (String × Value)} {name : String} {v : Value}
    {d : Dependency} (below : ∀ n ∈ d.subnodes, Relocates base n) :
    RuleMirrors (Finding.onto base) (runDependency s ms name v d).result
      (runDependency (s.onto base) ms name v d).result := by
  cases d with
  | names required =>
    rw [runDependency, runDependency]
    apply Mirrors.ok
    unfold missingNames
    rw [MappedBy, List.map_map]
    rfl
  | node n =>
    rw [runDependency, runDependency]
    have inner := (below n (.head _)).into_stopping s (.member name) v
    apply Mirrors.lift_map inner
    rintro found _ rfl
    exact Mirrors.firstAs_map (g := Finding.onto base) (f := dependencyFinding s name v)
      (h := dependencyFinding (s.onto base) name v) (fun _ => Finding.onto_child ..) found
  | unusable w =>
    rw [runDependency, runDependency]
    exact .error (.replaced _)

theorem relocates_dependencies {ds : List (String × Dependency)}
    (below : ∀ d ∈ ds, ∀ n ∈ d.2.subnodes, Relocates base n) :
    RuleRelocates base s .dependencies (.dependencies ds) := by
  unfold RuleRelocates
  rw [runRule, runRule, Subject.onto_value]
  split
  · rw [runDependencies_eq, runDependencies_eq]
    apply Mirrors.gatherAll
    intro t ht
    exact relocates_runDependency (below _ (mem_present.mp ht).1)
  · exact .nil

theorem relocates_branches {c : Combinator} (below : ∀ m ∈ n :: ns, Relocates base m) :
    RuleRelocates base s (.combine c) (.nodes (n :: ns)) := by
  unfold RuleRelocates
  cases c with
  | allOf =>
    rw [runRule, runRule, runConjunction_eq, runConjunction_eq]
    apply Mirrors.lift
    apply Mirrors.gatherAll
    intro t ht
    have inner := (below _ (List.fst_mem_of_mem_zipIdx ht)).into_stopping s (.branch t.2) s.value
    exact inner.firstAs fun _ => rfl
  | anyOf =>
    rw [runRule, runRule]
    apply Mirrors.lift_map (relocates_holdsSome below)
    rintro b _ rfl
    exact countVerdict_onto _ _
  | oneOf =>
    rw [runRule, runRule]
    apply Mirrors.lift_map (relocates_countHolding below)
    rintro holding _ rfl
    exact countVerdict_onto _ _

/-- A negation takes any failure for a failed schema, so the words of it do not matter. -/
theorem relocates_negation (below : Relocates base n) :
    RuleRelocates base s .negation (.node n) := by
  unfold RuleRelocates
  rw [runRule, runRule]
  split
  · have inner := below s.stopping
    have holds : Mirrors (fun _ _ : Fault => True) Eq
        ((evaluate s.stopping n).map (·.isEmpty)).result
        ((evaluate (s.onto base).stopping n).map (·.isEmpty)).result := by
      apply inner.map
      rintro found _ rfl
      exact List.isEmpty_map.symm
    apply Mirrors.lift_map (holds.recover rfl)
    rintro b _ rfl
    split
    · rfl
    · rfl
  · exact .ok rfl

theorem relocates_clause {c : Clause} (below : Relocates base n) :
    RuleRelocates base s (.clause c) (.node n) := by
  unfold RuleRelocates
  rw [runRule, runRule, Subject.onto_frame]
  split
  · apply Mirrors.lift_map (below s.stopping)
    rintro found _ rfl
    exact Mirrors.firstAs_map (g := Finding.onto base) (f := clauseFinding s c)
      (h := clauseFinding (s.onto base) c) (fun _ => rfl) found
  · exact .nil

/-- A built-in rule, whatever its parameter, above nodes whose runs mirror each other. -/
theorem relocates_runRule (k : Keyword) (p : Param) (below : ∀ m ∈ p.subnodes, Relocates base m) :
    RuleRelocates base s k p := by
  cases p with
  | plain v =>
    cases k with
    | type => exact .ok (checkType_onto v)
    | bound b => exact .ok (checkBound_onto b v)
    | multipleOf => exact .ok (checkMultipleOf_onto v)
    | limit l => exact .ok (checkLimit_onto l v)
    | pattern => exact checkPattern_onto v
    | uniqueItems => exact .ok (checkUniqueItems_onto v)
    | enum => exact .ok (checkEnum_onto v)
    | format => exact checkFormat_onto v
    | required => exact .ok (checkRequired_onto v)
    | additionalProperties =>
      cases v with
      | bool b =>
        cases b with
        | true => exact .nil
        | false => exact relocates_closed
      | _ => exact .nil
    | combine c => cases c <;> exact .ok rfl
    | negation => exact .ok rfl
    | _ => exact .nil
  | node n =>
    have inner := below n (.head _)
    cases k with
    | additionalProperties => exact relocates_additional inner
    | items => exact relocates_items inner
    | combine c => cases c <;> exact .ok rfl
    | negation => exact relocates_negation inner
    | clause c => exact relocates_clause inner
    | _ => exact .nil
  | nodes ns =>
    cases k with
    | items => exact relocates_elements below
    | combine c =>
      cases ns with
      | nil => cases c <;> exact .ok rfl
      | cons n ns => exact relocates_branches below
    | negation => exact .ok rfl
    | _ => exact .nil
  | named ns =>
    have inner : ∀ t ∈ ns, Relocates base t.2 := fun t ht => below _ (List.mem_map_of_mem ht)
    cases k with
    | properties => exact relocates_properties inner
    | patternProperties => exact relocates_patternProperties inner
    | combine c => cases c <;> exact .ok rfl
    | negation => exact .ok rfl
    | _ => exact .nil
  | dependencies ds =>
    cases k with
    | dependencies =>
      exact relocates_dependencies fun d hd n hn => below n (List.mem_flatMap.mpr ⟨d, hd, hn⟩)
    | combine c => cases c <;> exact .ok rfl
    | negation => exact .ok rfl
    | _ => exact .nil

theorem relocates_ofVerdict (base : Path) (s : Subject) (keyword : String) (v : Verdict) :
    RuleMirrors (Finding.onto base) (ofVerdict keyword s v).result
      (ofVerdict keyword (s.onto base) (v.onto base)).result := by
  cases v with
  | passed => exact .nil
  | failed => exact .ok rfl
  | violated found =>
    cases found with
    | nil => exact .ok rfl
    | cons f fs => exact .ok rfl
  | aborted f => exact .error (.fault _ _)
  | crashed b => exact .error (.breakdown _ _)

theorem relocates_runEntry {e : Entry} (follows : ∀ r, e.rule = some r → r.handler.Follows base)
    (below : ∀ m ∈ e.param.subnodes, Relocates base m) :
    NodeMirrors (Finding.onto base) (runEntry s e).result (runEntry (s.onto base) e).result := by
  obtain ⟨keyword, p, _ | ⟨handler, kind⟩⟩ := e
  · rw [runEntry, runEntry]
    exact .nil
  · rw [runEntry, runEntry]
    apply Mirrors.settle
    cases handler with
    | builtin k => exact relocates_runRule k p below
    | custom r =>
      have same := follows ⟨.custom r, kind⟩ rfl ⟨s.frame, s.value, p.view, s.path⟩
      have mirrors := relocates_ofVerdict base s keyword
        (r.apply ⟨s.frame, s.value, p.view, s.path⟩)
      rw [← same] at mirrors
      exact mirrors

theorem relocates_runEntries {es : List Entry} (each : ∀ e ∈ es,
    NodeMirrors (Finding.onto base) (runEntry s e).result (runEntry (s.onto base) e).result) :
    NodeMirrors (Finding.onto base) (runEntries s es).result
      (runEntries (s.onto base) es).result := by
  induction es with
  | nil =>
    rw [runEntries, runEntries]
    exact .nil
  | cons e es ih =>
    rw [List.forall_mem_cons] at each
    rw [result_runEntries_cons, result_runEntries_cons]
    exact each.1.join (ih each.2) fun _ => List.map_take.symm

theorem relocates_conditionOf {es : List Entry}
    (below : ∀ e ∈ es, ∀ m ∈ e.param.subnodes, Relocates base m) :
    Mirrors (fun _ _ : Fault => True) Eq (conditionOf s es).result
      (conditionOf (s.onto base) es).result := by
  rw [conditionOf_eq, conditionOf_eq]
  split
  · exact .ok rfl
  · next n found =>
    obtain ⟨e, he, hn⟩ := mem_of_conditionNode? found
    apply (below e he n hn s.stopping).map
    rintro found _ rfl
    rw [List.isEmpty_map]

end


/-- A node none of whose rules looks at the path runs alike at the end of another one. -/
theorem relocates_of_follows {base : Path} {n : Node} (follows : n.Every fun m =>
    ∀ e ∈ m.entries, ∀ r, e.rule = some r → r.handler.Follows base) : Relocates base n := by
  induction n using Node.induction with
  | step n ih =>
    intro s
    have below : ∀ m ∈ n.subnodes, Relocates base m := fun m hm => ih m hm (follows.of_mem hm)
    have inside : ∀ e ∈ n.entries, ∀ m ∈ e.param.subnodes, Relocates base m :=
      fun e he m hm => below m (Node.mem_subnodes_of_entry he hm)
    rw [evaluate_eq, evaluate_eq]
    apply (relocates_conditionOf (s := s.enter n.entries n.patterns) inside).of_bind
    rintro condition _ rfl
    apply relocates_runEntries (s := (s.enter n.entries n.patterns).under condition)
    intro e he
    exact relocates_runEntry (follows.root e he) (inside e he)

end Rules

end Conform
