import Conform.Proofs.Rules.Blame

/-! Compiled schemas do not go wrong. Compilation gives every built-in rule a parameter of the right
shape; a run then always ends in findings, and those that blame the schema itself are the two kinds
that compilation does not look for: divisors that are not positive and formats without a name. -/
namespace Conform.Rules

/-- A node whose runs with some formats all end, and end fairly. -/
def Safe (formats : Listing Checker) (n : Node) : Prop :=
  ∀ s : Subject, s.frame.formats = formats →
    Ends (Finding.Fair n.Lapse) (evaluate s n).result

/-- A node whose runs with some formats end, and blame nothing but what they may. -/
def EndsFairly (formats : Listing Checker) (blame : Reason → Prop) (n : Node) : Prop :=
  ∀ s : Subject, s.frame.formats = formats → Ends (Finding.Fair blame) (evaluate s n).result

section

variable {formats : Listing Checker} {blame : Reason → Prop} {n : Node} {s : Subject}

theorem EndsFairly.runs (h : EndsFairly formats blame n) (same : s.frame.formats = formats) :
    ∃ found, (evaluate s n).result = .ok found := by
  obtain ⟨found, hf, -⟩ := h s same
  exact ⟨found, hf⟩

theorem Safe.runs (h : Safe formats n) (same : s.frame.formats = formats) :
    ∃ found, (evaluate s n).result = .ok found := EndsFairly.runs h same

theorem Safe.endsFairly (h : Safe formats n) (may : ∀ r, n.Lapse r → blame r) :
    EndsFairly formats blame n := fun s same =>
  (h s same).imp fun _ fair guilty => may _ (fair guilty)

end

section

variable {s : Subject} {blame : Reason → Prop} {n : Node} {ns : List Node}

theorem ends_properties {ns : List (String × Node)}
    (below : ∀ t ∈ ns, EndsFairly s.frame.formats blame t.2) :
    Ends (Finding.Fair blame) (runRule s .properties (.named ns)).result := by
  rw [runRule]
  split
  case h_1 ms _ =>
    rw [runProperties_eq]
    refine Ends.lift (Ends.gatherAll fun t ht => ?_)
    exact below _ (mem_present.mp ht).1 (s.into (.member t.1) t.2.2) rfl
  case h_2 => exact Ends.nil

theorem ends_patternProperties {ns : List (String × Node)} {ps : List Pattern}
    (reads : List.Forall₂ (fun name p => Pattern.compile name = .ok p) (ns.map (·.1)) ps)
    (below : ∀ t ∈ ns, EndsFairly s.frame.formats blame t.2) :
    Ends (Finding.Fair blame) (runRule s .patternProperties (.named ns)).result := by
  rw [runRule]
  split
  case h_1 ms _ =>
    rw [Logged.result_bind, (result_readPatterns_eq_ok_iff s).mpr reads]
    refine Ends.lift (Ends.gatherAll fun m _ => ?_)
    rw [runMatching_eq]
    refine Ends.gatherAll fun n hn => ?_
    obtain ⟨p, key, ht, -⟩ := mem_matching.mp hn
    exact below _ (List.of_mem_zip ht).2 (s.into (.member m.1) m.2) rfl
  case h_2 => exact Ends.nil

theorem ends_additional (below : EndsFairly s.frame.formats blame n) :
    Ends (Finding.Fair blame) (runRule s .additionalProperties (.node n)).result := by
  rw [runRule]
  split
  case h_1 ms _ =>
    refine Ends.lift (Ends.gatherAll fun m _ => ?_)
    exact ends_firstAs (below (s.into (.member m.1) m.2).stopping rfl) fun _ => rfl
  case h_2 => exact Ends.nil

theorem ends_items (below : EndsFairly s.frame.formats blame n) :
    Ends (Finding.Fair blame) (runRule s .items (.node n)).result := by
  rw [runRule]
  split
  case h_1 xs _ =>
    exact Ends.lift (Ends.gatherAll fun x _ => below (s.into (.element x.2) x.1) rfl)
  case h_2 => exact Ends.nil

theorem ends_elements (below : ∀ n ∈ ns, EndsFairly s.frame.formats blame n) :
    Ends (Finding.Fair blame) (runRule s .items (.nodes ns)).result := by
  rw [runRule]
  split
  case h_1 xs _ =>
    rw [runItems_eq]
    refine Ends.lift (Ends.gatherAll fun t ht => ?_)
    have inBoth := List.of_mem_zip (List.fst_mem_of_mem_zipIdx ht)
    exact below _ inBoth.2 (s.into (.element t.2) t.1.1) rfl
  case h_2 => exact Ends.nil

theorem ends_runDependency {ms : List (String × Value)} {name : String} {v : Value}
    {d : Dependency} (usable : ∀ w, d ≠ .unusable w)
    (below : ∀ n ∈ d.subnodes, EndsFairly s.frame.formats blame n) :
    Ends (Finding.Fair blame) (runDependency s ms name v d).result := by
  rw [runDependency.eq_def]
  cases d with
  | names =>
    refine Ends.of_forall fun f hf guilty => ?_
    obtain ⟨r, -, rfl⟩ := List.mem_map.mp hf
    cases guilty
  | node n =>
    exact ends_firstAs (Ends.lift (below n (.head _) (s.into (.member name) v).stopping rfl))
      fun _ => rfl
  | unusable w => exact absurd rfl (usable w)

theorem ends_dependencies {ds : List (String × Dependency)}
    (usable : ∀ d ∈ ds, ∀ w, d.2 ≠ .unusable w)
    (below : ∀ d ∈ ds, ∀ n ∈ d.2.subnodes, EndsFairly s.frame.formats blame n) :
    Ends (Finding.Fair blame) (runRule s .dependencies (.dependencies ds)).result := by
  rw [runRule]
  split
  case h_1 ms _ =>
    rw [runDependencies_eq]
    refine Ends.gatherAll fun t ht => ?_
    have hd := (mem_present.mp ht).1
    exact ends_runDependency (usable _ hd) (below _ hd)
  case h_2 => exact Ends.nil

theorem ends_branches {c : Combinator}
    (below : ∀ m ∈ n :: ns, EndsFairly s.frame.formats blame m) :
    Ends (Finding.Fair blame) (runRule s (.combine c) (.nodes (n :: ns))).result := by
  have runs : ∀ m ∈ n :: ns, ∃ found, (evaluate s.stopping m).result = .ok found :=
    fun m hm => (below m hm).runs rfl
  cases c with
  | allOf =>
    rw [runRule, runConjunction_eq]
    refine Ends.lift (Ends.gatherAll fun t ht => ends_firstAs ?_ fun _ => rfl)
    exact below _ (List.fst_mem_of_mem_zipIdx ht) (branchAt s t.2) rfl
  | anyOf =>
    rw [runRule, Logged.result_map, result_lift, result_holdsSome s runs]
    exact Ends.of_forall fair_countVerdict
  | oneOf =>
    rw [runRule, Logged.result_map, result_lift, result_countHolding s runs]
    exact Ends.of_forall fair_countVerdict

theorem ends_negation (ruled : n.hasRules) (below : EndsFairly s.frame.formats blame n) :
    Ends (Finding.Fair blame) (runRule s .negation (.node n)).result := by
  obtain ⟨found, hf⟩ := below.runs (s := s.stopping) rfl
  rw [result_runRule_negation s ruled hf]
  refine Ends.of_forall ?_
  split
  · exact fair_finding rfl
  · exact List.forall_mem_nil _

theorem ends_clause {c : Clause} (below : EndsFairly s.frame.formats blame n) :
    Ends (Finding.Fair blame) (runRule s (.clause c) (.node n)).result := by
  rw [runRule]
  split
  · exact ends_firstAs (Ends.lift (below s.stopping rfl)) fun _ => rfl
  · exact Ends.nil

end

open Compile in
/-- A built-in rule with the parameter that compilation gives it, above nodes that behave. -/
theorem ends_runRule {s : Subject} {C : Value → Node → Prop} {k : Keyword} {v : Value} {p : Param}
    (h : ParamOf C (some k) v p) (answers : k = .format → s.frame.Answers)
    (ih : ∀ m ∈ p.subnodes, Safe s.frame.formats m) :
    Ends (Finding.Fair (p.Blame k)) (runRule s k p).result := by
  have below : ∀ m ∈ p.subnodes, EndsFairly s.frame.formats (p.Blame k) m := fun m hm =>
    (ih m hm).endsFairly fun r lapse => .inr ⟨m, hm, lapse⟩
  cases h with
  | typeName | typeNames => exact .of_forall fair_checkType
  | bound => exact .of_forall fair_checkBound
  | multipleOf => exact .of_forall (fair_checkMultipleOf fun small => .inl (.divisor small))
  | limit _ natural => exact .of_forall (fair_checkLimit natural)
  | pattern reads => exact ends_checkPattern reads
  | uniqueItems => exact .of_forall fair_checkUniqueItems
  | enum => exact .of_forall fair_checkEnum
  | required => exact .of_forall fair_checkRequired
  | format => exact ends_checkFormat (answers rfl) fun nameless => .inl (.format nameless)
  | properties => exact ends_properties fun t ht => below _ (List.mem_map_of_mem ht)
  | patternProperties compile =>
    obtain ⟨ps, hps⟩ := exists_reads compile
    exact ends_patternProperties hps fun t ht => below _ (List.mem_map_of_mem ht)
  | closed => exact ends_closed
  | additional => exact ends_additional (below _ (.head _))
  | items => exact ends_items (below _ (.head _))
  | elements => exact ends_elements below
  | dependencies compile =>
    have usable := (ParamOf.dependencies (a := .frozen) compile).usable
    refine ends_dependencies usable fun d hd m hm => ?_
    exact below m (List.mem_flatMap.mpr ⟨d, hd, hm⟩)
  | branches filled compile =>
    obtain ⟨n, ns, rfl⟩ := exists_cons_of_forall₂ filled compile
    exact ends_branches below
  | negation _ _ ruled => exact ends_negation ruled (below _ (.head _))
  | clause => exact ends_clause (below _ (.head _))

theorem ends_runEntries {s : Subject} {P : Finding → Prop} {es : List Entry}
    (h : ∀ e ∈ es, Ends P (runEntry s e).result) : Ends P (runEntries s es).result := by
  induction es with
  | nil =>
    rw [runEntries]
    exact Ends.nil
  | cons e es ih =>
    rw [List.forall_mem_cons] at h
    rw [result_runEntries_cons]
    exact h.1.bind (ih h.2) fun _ _ => List.mem_of_mem_take

/-- The step of the induction: nothing but a node's own entries and the nodes in them is run. The
formats have to answer only where the tree asks for one. -/
theorem safe_of_asks {mode : Mode} {formats : Listing Checker} {raw : Value} {n : Node}
    (h : Compiles Rule.builtins mode raw n)
    (answers : n.Asks .format → ∀ frame : Frame, frame.formats = formats → frame.Answers) :
    Safe formats n := by
  induction n using Node.induction generalizing raw with
  | step n ih =>
    have safe : ∀ m ∈ n.subnodes, Safe formats m := fun m hm =>
      have ⟨raw', h'⟩ := h.of_mem_subnodes hm
      ih m hm h' fun asks => answers (.inside hm asks)
    intro s same
    have condition : ∃ c, (conditionOf (s.enter n.entries n.patterns) n.entries).result =
        .ok c := by
      rw [conditionOf_eq]
      split
      case h_1 => exact ⟨none, rfl⟩
      case h_2 m hm =>
        obtain ⟨e, he, sub⟩ := mem_of_conditionNode? hm
        obtain ⟨found, hf⟩ := (safe m (Node.mem_subnodes_of_entry he sub)).runs
          (s := (s.enter n.entries n.patterns).stopping) same
        rw [Logged.result_map, hf]
        exact ⟨_, rfl⟩
    obtain ⟨c, hc⟩ := condition
    rw [evaluate_eq, Logged.result_bind, hc]
    refine ends_runEntries fun e he => ?_
    rcases h.builtins_of_mem_entries he with unruled | ⟨k, v, p, rfl, compiles⟩
    · obtain ⟨keyword, p, rule⟩ := e
      cases unruled
      rw [runEntry]
      exact Ends.nil
    · rw [runEntry]
      have ends := ends_runRule (s := (s.enter n.entries n.patterns).under c) compiles
        (fun format => answers (.own he rfl (format ▸ rfl)) _ same)
        fun m hm => same ▸ safe m (Node.mem_subnodes_of_entry he hm)
      refine Ends.settle (ends.imp ?_)
      · rintro f fair guilty
        rcases fair guilty with lapse | ⟨m, hm, lapse⟩
        · exact .own he lapse
        · exact .inside (Node.mem_subnodes_of_entry he hm) lapse

theorem safe_of_compiles {mode : Mode} {formats : Listing Checker} {raw : Value} {n : Node}
    (h : Compiles Rule.builtins mode raw n)
    (answers : ∀ frame : Frame, frame.formats = formats → frame.Answers) : Safe formats n :=
  safe_of_asks h fun _ => answers

/-- Schemas that compile against the built-in rules do not go wrong: with formats that answer,
every run ends in findings, and one that blames the schema blames a divisor that is not positive or
a format without a name, and is right about it. -/
theorem evaluate_fair {mode : Mode} {raw : Value} {n : Node} {s : Subject}
    (compiled : (compileSchema Rule.builtins mode raw).result = .ok n)
    (answers : s.frame.Answers) :
    ∃ found, (evaluate s n).result = .ok found ∧
      ∀ f ∈ found, f.reason.core.blamesSchema → n.Lapse f.reason.core :=
  safe_of_compiles (result_compileSchema_eq_ok_iff.mp compiled)
    (fun _ same name checker => same ▸ answers name checker) s rfl

/-- A divisor and a format that compilation lets through, one of them below the root. -/
def lapseSchema : Value :=
  .object .mutable [("multipleOf", .ofInt 0), ("properties", .object .mutable [("a",
    .object .mutable [("format", .ofInt 5)])])]

def lapseNode : Node :=
  .mk .loose
    [.mk "multipleOf" (.plain (.ofInt 0)) (some (.of .multipleOf)),
    .mk "properties" (.named [("a", .mk .loose
        [.mk "format" (.plain (.ofInt 5)) (some (.of .format))] [] [])])
      (some (.of .properties))] [] []

/-- Both are blamed at run time, each on its own place. -/
theorem evaluate_fair_lapseNode :
    let s : Subject := ⟨{ mode := .loose }, .object .mutable [("a", .null)], .ofString "$"⟩
    (compileSchema Rule.builtins .loose lapseSchema).result = .ok lapseNode ∧ s.frame.Answers ∧
    (evaluate s lapseNode).result = .ok
      [⟨s.path, .badDivisor, "multipleOf", s.value, none⟩,
        ⟨s.path.child (.member "a"), .badFormat, "format", .null, none⟩] ∧
    lapseNode.Lapse .badDivisor ∧ lapseNode.Lapse .badFormat := by
  intro s
  have compiled : (compileSchema Rule.builtins .loose lapseSchema).result = .ok lapseNode := rfl
  have answers : s.frame.Answers := Frame.answers_of_builtins rfl
  have run : (evaluate s lapseNode).result = .ok
      [⟨s.path, .badDivisor, "multipleOf", s.value, none⟩,
        ⟨s.path.child (.member "a"), .badFormat, "format", .null, none⟩] := rfl
  obtain ⟨found, hf, fair⟩ := evaluate_fair compiled answers
  obtain rfl := Except.ok.inj (hf.symm.trans run)
  exact ⟨compiled, answers, run, fair _ (.head _) rfl, fair _ (.tail _ (.head _)) rfl⟩

end Conform.Rules
