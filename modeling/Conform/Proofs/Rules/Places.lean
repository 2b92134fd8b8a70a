import Conform.Proofs.Rules.Reports
import Conform.Proofs.Schema.Vocabulary
import Conform.Proofs.Value.Steps

/-! What a run says of places. A law that ties findings to a value and a path, holds where a rule
makes them and is kept on the way out of a part of the value and of a clause, holds of all that a run
reports. The rules are gone through here once, for all such laws. -/
namespace Conform

/-- The member that a reason finds missing where it is reported, however it is wrapped on the way.
What is wrapped for a member or a dependency is reported there, and not at what it misses. -/
def Reason.missing? : Reason → Option String
  | .missing name => some name
  | .conjunct _ _ inner | .clause _ _ inner => inner.missing?
  | _ => none

namespace Rules

/-- A law of findings about a value at a path. What a rule finds missing is the one thing that is
reported at a step which leads nowhere. -/
structure PlaceLaw (P : Value → Path → Finding → Prop) : Prop where
  own {v : Value} {p : Path} {f : Finding} (path : f.path = p) (present : f.reason.missing? = none)
    (shown : f.value = v ∨ f.value = .null) : P v p f
  missing {a : Access} {ms : List (String × Value)} {name : String}
    (absent : Listing.has name ms = false) (p : Path) :
    P (.object a ms) p
      ⟨p.child (.member name), .missing name, Keyword.required.name, .null, some name⟩
  inside {v w : Value} {step : Step} (part : v.Part step w) {p : Path} {f : Finding}
    (below : P w (p.child step) f) : P v p f
  clause {c : Clause} (asks : c ≠ .condition) (s : Subject) {v : Value} {p : Path} {f : Finding}
    (inner : P v p f) : P v p (clauseFinding s c f)

/-- A law that is also kept on the way out of a branch of a conjunction. -/
def BranchLaw (P : Value → Path → Finding → Prop) : Prop :=
  ∀ (v : Value) (p : Path) (i : Nat) (f : Finding), P v (p.child (.branch i)) f →
    P v p (conjunctFinding i f)

variable {P : Value → Path → Finding → Prop} (law : PlaceLaw P)

section Leaves

variable (s : Subject)

include law

theorem placed_finding {tag : String} {reason : Reason} {param : Option String}
    (present : reason.missing? = none) :
    ∀ f ∈ s.finding tag reason param, P s.value s.path f := by
  intro f hf
  obtain rfl := List.mem_singleton.mp hf
  exact law.own rfl present (.inl rfl)

theorem placed_bareFinding {tag : String} {reason : Reason} (present : reason.missing? = none) :
    ∀ f ∈ s.bareFinding tag reason, P s.value s.path f := by
  intro f hf
  obtain rfl := List.mem_singleton.mp hf
  exact law.own rfl present (.inr rfl)

theorem placed_guard {c : Prop} [Decidable c] {tag : String} {reason : Reason}
    {param : Option String} (present : reason.missing? = none) :
    ∀ f ∈ if c then [] else s.finding tag reason param, P s.value s.path f := by
  split
  · exact List.forall_mem_nil _
  · exact placed_finding law s present

theorem placed_checkType (v : Value) : ∀ f ∈ checkType s v, P s.value s.path f := by
  unfold checkType
  apply placed_guard law s
  split <;> rfl

theorem placed_checkBound (b : Bound) (v : Value) :
    ∀ f ∈ checkBound b s v, P s.value s.path f := by
  unfold checkBound
  split
  · exact placed_finding law s rfl
  · exact placed_finding law s rfl
  · exact placed_guard law s rfl

theorem placed_checkMultipleOf (v : Value) :
    ∀ f ∈ checkMultipleOf s v, P s.value s.path f := by
  unfold checkMultipleOf
  dsimp only
  split
  · exact placed_finding law s rfl
  · split
    · exact placed_finding law s rfl
    · split
      · exact placed_finding law s rfl
      · split
        · exact List.forall_mem_nil _
        · exact placed_finding law s rfl

omit law in
theorem missing?_of_size {l : Limit} {v : Value} {reason : Reason} (h : size l v = .error reason) :
    reason.missing? = none := by
  unfold size at h
  split at h <;> cases h <;> rfl

theorem placed_checkLimit (l : Limit) (v : Value) :
    ∀ f ∈ checkLimit l s v, P s.value s.path f := by
  unfold checkLimit
  split
  case h_1 h => exact placed_finding law s (missing?_of_size h)
  case h_2 =>
    split
    · exact placed_finding law s rfl
    · split
      · exact placed_finding law s rfl
      · exact placed_guard law s rfl

theorem placed_checkPattern (v : Value) :
    RuleReports (P s.value s.path) (checkPattern s v).result := by
  unfold checkPattern
  dsimp only
  split
  · split
    · exact placed_guard law s rfl
    · split
      · exact placed_finding law s rfl
      · exact List.forall_mem_nil _
  · exact placed_finding law s rfl
  · exact placed_finding law s rfl

theorem placed_checkUniqueItems (v : Value) :
    ∀ f ∈ checkUniqueItems s v, P s.value s.path f := by
  unfold checkUniqueItems
  dsimp only
  split
  · exact List.forall_mem_nil _
  · exact placed_guard law s rfl
  · exact placed_finding law s rfl
  · exact placed_finding law s rfl

theorem placed_checkEnum (v : Value) : ∀ f ∈ checkEnum s v, P s.value s.path f := by
  unfold checkEnum
  exact placed_guard law s rfl

theorem placed_checkFormat (v : Value) :
    RuleReports (P s.value s.path) (checkFormat s v).result := by
  unfold checkFormat
  dsimp only
  split
  · split
    · split
      · exact List.forall_mem_nil _
      · exact placed_finding law s rfl
      · exact List.forall_mem_nil _
    · split
      · exact List.forall_mem_nil _
      · exact placed_finding law s rfl
      · exact placed_finding law s rfl
  · exact placed_finding law s rfl
  · exact placed_finding law s rfl

/-- The one rule whose findings are named after something that is not there. -/
theorem placed_checkRequired (v : Value) :
    ∀ f ∈ checkRequired s v, P s.value s.path f := by
  unfold checkRequired
  dsimp only
  split
  case h_1 a ms hv =>
    intro f hf
    obtain ⟨name, mem, rfl⟩ := List.mem_map.mp hf
    have absent : Listing.has name ms = false := by simpa using (List.mem_filter.mp mem).2
    rw [hv]
    exact law.missing absent s.path
  case h_2 => exact placed_finding law s rfl

theorem placed_countVerdict (c : Combinator) (holding : Nat) :
    ∀ f ∈ countVerdict c s holding, P s.value s.path f := by
  unfold countVerdict
  split
  · exact placed_finding law s rfl
  · exact placed_finding law s rfl
  · exact List.forall_mem_nil _

end Leaves

/-- A node whose runs keep a law. -/
def Places (P : Value → Path → Finding → Prop) (n : Node) : Prop :=
  ∀ s : Subject, NodeReports (P s.value s.path) (evaluate s n).result

section

variable {s : Subject} {n : Node} {ns : List Node}

include law

/-- A visit one step further. -/
theorem Places.into (h : Places P n) {step : Step} {w : Value} (part : s.value.Part step w) :
    NodeReports (P s.value s.path) (evaluate (s.into step w) n).result :=
  (h (s.into step w)).imp fun _ => law.inside part

/-- What is wrapped for a member is found at the member and shows it. -/
theorem placed_member {name tag : String} {w : Value} {reason : Reason} {param : Option String}
    (part : s.value.Part (.member name) w) (present : reason.missing? = none) :
    P s.value s.path ⟨s.path.child (.member name), reason, tag, w, param⟩ :=
  law.inside part (law.own rfl present (.inl rfl))

theorem placed_properties {ns : List (String × Node)} (below : ∀ t ∈ ns, Places P t.2) :
    RuleReports (P s.value s.path) (runRule s .properties (.named ns)).result := by
  rw [runRule]
  split
  case h_1 a ms hv =>
    rw [runProperties_eq]
    apply Reports.lift
    apply Reports.gatherAll
    intro t ht
    obtain ⟨declared, member⟩ := mem_present.mp ht
    exact (below _ declared).into law (hv ▸ Value.part_of_get? member)
  case h_2 => exact Reports.nil

theorem placed_readPatterns {names : List String} {e : Break}
    (h : (readPatterns s names).result = .error e) : ∀ f ∈ e.said, P s.value s.path f := by
  induction names with
  | nil => cases h
  | cons name names ih =>
    rw [readPatterns] at h
    split at h
    · rw [Logged.result_bind] at h
      cases hr : (readPatterns s names).result with
      | error d =>
        rw [hr] at h
        cases h
        exact ih hr
      | ok ps =>
        rw [hr] at h
        cases h
    · split at h
      · cases h
        intro f hf
        obtain rfl := List.mem_singleton.mp hf
        exact law.own rfl rfl (.inr rfl)
      · cases h
        exact List.forall_mem_nil _

theorem placed_patternProperties {ns : List (String × Node)} (below : ∀ t ∈ ns, Places P t.2) :
    RuleReports (P s.value s.path) (runRule s .patternProperties (.named ns)).result := by
  rw [runRule]
  split
  case h_1 a ms hv =>
    apply Reports.of_bind (fun e => placed_readPatterns law)
    intro ps _
    apply Reports.lift
    apply Reports.gatherAll
    intro m hm
    rw [runMatching_eq]
    apply Reports.gatherAll
    intro n hn
    obtain ⟨p, key, mem, -⟩ := mem_matching.mp hn
    exact (below _ (List.of_mem_zip mem).2).into law (hv ▸ .member hm)
  case h_2 => exact Reports.nil

theorem placed_closed (b : Bool) :
    RuleReports (P s.value s.path) (runRule s .additionalProperties (.plain (.bool b))).result := by
  cases b with
  | true =>
    unfold runRule
    exact Reports.nil
  | false =>
    rw [runRule]
    split
    case h_1 a ms hv =>
      have each : ∀ f ∈ (extras s.frame ms).map (unknownField s), P s.value s.path f := by
        intro f hf
        obtain ⟨m, hm, rfl⟩ := List.mem_map.mp hf
        exact placed_member law (hv ▸ .member (List.mem_filter.mp hm).1) rfl
      split
      · exact Reports.nil
      · intro f hf
        apply each
        split at hf
        · exact List.mem_of_mem_take hf
        · exact hf
    case h_2 => exact Reports.nil

theorem placed_additional (below : Places P n) :
    RuleReports (P s.value s.path) (runRule s .additionalProperties (.node n)).result := by
  rw [runRule]
  split
  case h_1 a ms hv =>
    apply Reports.lift
    apply Reports.gatherAll
    intro m hm
    have part : s.value.Part (.member m.1) m.2 := hv ▸ .member (List.mem_filter.mp hm).1
    apply Reports.firstAs (below.into law (s := s.stopping) part)
    intro _ _
    exact placed_member law part rfl
  case h_2 => exact Reports.nil

theorem placed_items (below : Places P n) :
    RuleReports (P s.value s.path) (runRule s .items (.node n)).result := by
  rw [runRule]
  split
  case h_1 a xs hv =>
    apply Reports.lift
    apply Reports.gatherAll
    intro t ht
    exact below.into law (hv ▸ .element (List.mem_zipIdx_iff_getElem?.mp ht))
  case h_2 => exact Reports.nil

theorem placed_elements (below : ∀ n ∈ ns, Places P n) :
    RuleReports (P s.value s.path) (runRule s .items (.nodes ns)).result := by
  rw [runRule]
  split
  case h_1 a xs hv =>
    rw [runItems_eq]
    apply Reports.lift
    apply Reports.gatherAll
    intro t ht
    have pair := List.mem_zipIdx_iff_getElem?.mp ht
    obtain ⟨element, -⟩ := List.getElem?_zip_eq_some.mp pair
    have node := below _ (List.of_mem_zip (List.fst_mem_of_mem_zipIdx ht)).2
    exact node.into law (hv ▸ .element element)
  case h_2 => exact Reports.nil

theorem placed_runDependency {ms : List (String × Value)} {name : String} {v : Value}
    {d : Dependency} (part : s.value.Part (.member name) v)
    (below : ∀ n ∈ d.subnodes, Places P n) :
    RuleReports (P s.value s.path) (runDependency s ms name v d).result := by
  rw [runDependency.eq_def]
  cases d with
  | names required =>
    intro f hf
    obtain ⟨r, -, rfl⟩ := List.mem_map.mp hf
    exact law.own rfl rfl (.inr rfl)
  | node n =>
    apply Reports.lift_map
    apply Reports.firstAs ((below n (.head _)).into law (s := s.stopping) part)
    intro _ _
    exact placed_member law part rfl
  | unusable w => exact placed_bareFinding law s rfl

theorem placed_dependencies {ds : List (String × Dependency)}
    (below : ∀ d ∈ ds, ∀ n ∈ d.2.subnodes, Places P n) :
    RuleReports (P s.value s.path) (runRule s .dependencies (.dependencies ds)).result := by
  rw [runRule]
  split
  case h_1 a ms hv =>
    rw [runDependencies_eq]
    apply Reports.gatherAll
    intro t ht
    obtain ⟨declared, member⟩ := mem_present.mp ht
    exact placed_runDependency law (hv ▸ Value.part_of_get? member) (below _ declared)
  case h_2 => exact Reports.nil

/-- A branch is a step that stays at the value. -/
theorem placed_branches {c : Combinator} (branch : c = .allOf → BranchLaw P)
    (below : ∀ m ∈ n :: ns, Places P m) :
    RuleReports (P s.value s.path) (runRule s (.combine c) (.nodes (n :: ns))).result := by
  cases c with
  | allOf =>
    rw [runRule, runConjunction_eq]
    apply Reports.lift
    apply Reports.gatherAll
    intro t ht
    apply Reports.firstAs (below _ (List.fst_mem_of_mem_zipIdx ht) (branchAt s t.2))
    exact branch rfl s.value s.path t.2
  | anyOf =>
    rw [runRule]
    exact Reports.lift_answer fun _ => placed_countVerdict law s _ _
  | oneOf =>
    rw [runRule]
    exact Reports.lift_answer fun _ => placed_countVerdict law s _ _

theorem placed_negation :
    RuleReports (P s.value s.path) (runRule s .negation (.node n)).result := by
  rw [runRule]
  split
  · apply Reports.lift_answer
    intro b
    split
    · exact placed_finding law s rfl
    · exact List.forall_mem_nil _
  · exact placed_bareFinding law s rfl

theorem placed_clause {c : Clause} (below : Places P n) :
    RuleReports (P s.value s.path) (runRule s (.clause c) (.node n)).result := by
  rw [runRule]
  split
  case isTrue applies =>
    have asks : c ≠ .condition := by
      rintro rfl
      simp [clauseApplies] at applies
    apply Reports.lift_map
    apply Reports.firstAs (below s.stopping)
    intro f inner
    exact law.clause asks s inner
  case isFalse => exact Reports.nil

/-- A built-in rule, whatever its parameter, above nodes that keep the law. -/
theorem placed_runRule (k : Keyword) (p : Param) (branch : k = .combine .allOf → BranchLaw P)
    (below : ∀ m ∈ p.subnodes, Places P m) :
    RuleReports (P s.value s.path) (runRule s k p).result := by
  cases p with
  | plain v =>
    cases k with
    | type => exact placed_checkType law s v
    | bound b => exact placed_checkBound law s b v
    | multipleOf => exact placed_checkMultipleOf law s v
    | limit l => exact placed_checkLimit law s l v
    | pattern => exact placed_checkPattern law s v
    | uniqueItems => exact placed_checkUniqueItems law s v
    | enum => exact placed_checkEnum law s v
    | format => exact placed_checkFormat law s v
    | required => exact placed_checkRequired law s v
    | additionalProperties =>
      cases v with
      | bool b => exact placed_closed law b
      | _ => exact Reports.nil
    | combine c => cases c <;> exact placed_bareFinding law s rfl
    | negation => exact placed_bareFinding law s rfl
    | _ => exact Reports.nil
  | node n =>
    have inner := below n (.head _)
    cases k with
    | additionalProperties => exact placed_additional law inner
    | items => exact placed_items law inner
    | combine c => cases c <;> exact placed_bareFinding law s rfl
    | negation => exact placed_negation law
    | clause c => exact placed_clause law inner
    | _ => exact Reports.nil
  | nodes ns =>
    cases k with
    | items => exact placed_elements law below
    | combine c =>
      cases ns with
      | nil => cases c <;> exact placed_bareFinding law s rfl
      | cons n ns => exact placed_branches law (fun same => branch (congrArg _ same)) below
    | negation => exact placed_bareFinding law s rfl
    | _ => exact Reports.nil
  | named ns =>
    have inner : ∀ t ∈ ns, Places P t.2 := fun t ht => below _ (List.mem_map_of_mem ht)
    cases k with
    | properties => exact placed_properties law inner
    | patternProperties => exact placed_patternProperties law inner
    | combine c => cases c <;> exact placed_bareFinding law s rfl
    | negation => exact placed_bareFinding law s rfl
    | _ => exact Reports.nil
  | dependencies ds =>
    cases k with
    | dependencies =>
      exact placed_dependencies law fun d hd n hn => below n (List.mem_flatMap.mpr ⟨d, hd, hn⟩)
    | combine c => cases c <;> exact placed_bareFinding law s rfl
    | negation => exact placed_bareFinding law s rfl
    | _ => exact Reports.nil

/-- A tree compiled against the built-in rules keeps every law of places; of its branches it is only
asked where there is a conjunction in it. -/
theorem places_of_compiles {mode : Mode} {raw : Value} {n : Node}
    (h : Compiles Rule.builtins mode raw n)
    (branch : n.Asks (.combine .allOf) → BranchLaw P) : Places P n := by
  induction n using Node.induction generalizing raw with
  | step n ih =>
    intro s
    rw [evaluate_eq]
    apply Reports.of_bind (fun _ _ => List.forall_mem_nil _)
    intro condition _
    apply Reports.runEntries
    intro e he
    rcases h.builtins_of_mem_entries he with unruled | ⟨k, v, p, rfl, -⟩
    · obtain ⟨keyword, p, rule⟩ := e
      cases unruled
      rw [runEntry]
      exact Reports.nil
    · rw [runEntry]
      apply Reports.settle
      apply placed_runRule law (s := (s.enter n.entries n.patterns).under condition) k p
      · rintro rfl
        exact branch (.own he rfl rfl)
      · intro m hm
        have below := Node.mem_subnodes_of_entry he hm
        obtain ⟨inside, compiles⟩ := h.of_mem_subnodes below
        exact ih m below compiles fun asks => branch (.inside below asks)

end

end Rules

end Conform
