import Conform.Proofs.Rules.Visits
import Conform.Schema.Compile

/-! Runs that give no findings. A rule is used at a place of the run, and what it fails of passes
through every level above it unchanged; only a negation keeps it. -/
namespace Conform

/-- A rule that comes with the library. -/
def Rule.BuiltIn (r : Rule) : Prop := ∃ k, r.handler = .builtin k

end Conform

namespace Conform.Rules

/-- One use of a rule. -/
structure Use where
  subject : Subject
  keyword : String
  param : Param
  rule : Rule

namespace Use

/-- How the rule ends, before its end is taken for the node's. -/
def ending (u : Use) : Except Break (List Finding) :=
  match u.rule.handler with
  | .builtin k => (runRule u.subject k u.param).result
  | .custom r =>
    let call : Call := ⟨u.subject.frame, u.subject.value, u.param.view, u.subject.path⟩
    (ofVerdict u.keyword u.subject (r.apply call)).result

/-- The nodes that the rule visits. Custom rules see none. -/
def visits (u : Use) : List Visit :=
  match u.rule.handler with
  | .builtin k => u.subject.visits k u.param
  | .custom _ => []

/-- The fault that is made of a breakdown: it names the keyword and the place. -/
def failure (u : Use) (b : Breakdown) : Fault :=
  .ruleFailed u.keyword u.subject.path.text b.text

/-- The rule ends in a fault, or in a breakdown of which the fault is made. -/
def Fails (u : Use) (f : Fault) : Prop :=
  u.ending = .error (.fault f) ∨ ∃ b, u.ending = .error (.breakdown b) ∧ f = u.failure b

end Use

/-- A subject as the rules of a node see it once the node's condition is known. -/
def Subject.judged (s : Subject) (n : Node) (condition : Option Bool) : Subject :=
  (s.enter n.entries n.patterns).under condition

/-- The uses of rules in the run of a node. -/
inductive Uses : Subject → Node → Use → Prop
  /-- The node's own rules, as far as the run comes. -/
  | own {s : Subject} {n : Node} {condition : Option Bool} {e : Entry} {r : Rule}
    (known : (conditionOf (s.enter n.entries n.patterns) n.entries).result = .ok condition)
    (comes : e ∈ reached (joins s.frame.stopAtFirst)
      (fun e => (runEntry (s.judged n condition) e).result) n.entries)
    (ruled : e.rule = some r) : Uses s n ⟨s.judged n condition, e.keyword, e.param, r⟩
  /-- Those by which the node finds out whether its condition holds. -/
  | condition {s : Subject} {n m : Node} {u : Use} (waits : conditionNode? n.entries = some m)
    (inner : Uses (s.enter n.entries n.patterns).stopping m u) : Uses s n u
  /-- Those in a node that a rule visits. -/
  | inside {s : Subject} {n : Node} {u w : Use} {v : Visit} (outer : Uses s n u)
    (visit : v ∈ u.visits) (inner : Uses v.subject v.node w) : Uses s n w

/-- None of the uses that a use leads to ends for good. -/
def Use.Innermost (u : Use) : Prop :=
  ∀ v ∈ u.visits, ∀ w, Uses v.subject v.node w → ∀ b, w.ending = .error b → ¬ b.Hard

section

variable {s : Subject} {f : Fault}

theorem result_conditionOf_eq_error_iff {es : List Entry} :
    (conditionOf s es).result = .error f ↔
      ∃ m, conditionNode? es = some m ∧ (evaluate s.stopping m).result = .error f := by
  rw [conditionOf_eq]
  cases conditionNode? es with
  | none => simp
  | some m => simp [map_eq_error_iff]

theorem result_evaluate_eq_error_iff {n : Node} :
    (evaluate s n).result = .error f ↔
      (conditionOf (s.enter n.entries n.patterns) n.entries).result = .error f ∨
      ∃ condition, (conditionOf (s.enter n.entries n.patterns) n.entries).result = .ok condition ∧
        (runEntries (s.judged n condition) n.entries).result = .error f := by
  rw [evaluate_eq, Logged.result_bind]
  cases (conditionOf (s.enter n.entries n.patterns) n.entries).result <;>
    simp [bind, Except.bind, Subject.judged]

/-- An entry fails as its rule does; what nobody foresaw is named after its keyword and place. -/
theorem result_runEntry_eq_error_iff {e : Entry} :
    (runEntry s e).result = .error f ↔
      ∃ r, e.rule = some r ∧ (Use.mk s e.keyword e.param r).Fails f := by
  obtain ⟨keyword, p, rule⟩ := e
  cases rule with
  | none => simp [runEntry, Entry.rule]
  | some r =>
    have settled : ∀ x : Checking (List Finding), (settle keyword s.path x).result = .error f ↔
        x.result = .error (.fault f) ∨ ∃ b, x.result = .error (.breakdown b) ∧
          f = .ruleFailed keyword s.path.text b.text := by
      intro x
      rw [result_settle]
      split <;> simp_all [eq_comm]
    rw [runEntry, settled]
    obtain ⟨handler, kind⟩ := r
    cases handler <;>
      simp [Entry.rule, Entry.param, Entry.keyword, Use.Fails, Use.ending, Use.failure]

end

/-- A use of a rule other than negation, with no negation in its parameter. -/
structure Use.Unnegated (u : Use) : Prop where
  rule : u.rule.handler ≠ .builtin .negation
  inside : ∀ m ∈ u.param.subnodes, ¬ m.Asks .negation

theorem Use.Unnegated.of_entry {n : Node} {s : Subject} {e : Entry} {r : Rule}
    (h : ¬ n.Asks .negation) (he : e ∈ n.entries) (ruled : e.rule = some r) :
    Use.Unnegated ⟨s, e.keyword, e.param, r⟩ where
  rule handler := h (.own he ruled handler)
  inside _ hm asks := h (.inside (Node.mem_subnodes_of_entry he hm) asks)

namespace Use

variable {u : Use} {f : Fault}

theorem node_mem_subnodes {v : Visit} (h : v ∈ u.visits) : v.node ∈ u.param.subnodes := by
  unfold visits at h
  split at h
  · exact mem_subnodes_of_visit h
  · cases h

theorem ending_of_visit (h : u.Unnegated) {v : Visit} (hv : v ∈ u.visits)
    (failed : v.outcome = .error f) : u.ending = .error (.fault f) := by
  obtain ⟨s, keyword, p, ⟨handler, kind⟩⟩ := u
  cases handler with
  | builtin k =>
    have plain : k ≠ .negation := fun same => h.rule (same ▸ rfl)
    exact (transparent_runRule plain f).mpr ⟨v, hv, failed⟩
  | custom r => cases hv

/-- A fault is that of a visit, or the rule visits nothing. -/
theorem exists_visit_of_ending (h : u.Unnegated) (failed : u.ending = .error (.fault f)) :
    (∃ v ∈ u.visits, v.outcome = .error f) ∨ u.visits = [] := by
  obtain ⟨s, keyword, p, ⟨handler, kind⟩⟩ := u
  cases handler with
  | builtin k =>
    have plain : k ≠ .negation := fun same => h.rule (same ▸ rfl)
    exact .inl ((transparent_runRule plain f).mp failed)
  | custom r => exact .inr rfl

end Use

/-- However deep in a run without negations a rule fails, the run fails as the rule does. -/
theorem fails_of_uses {s : Subject} {n : Node} {u : Use} (uses : Uses s n u)
    (h : ¬ n.Asks .negation) :
    u.Unnegated ∧ ∀ f, u.Fails f → (evaluate s n).result = .error f := by
  induction uses with
  | @own s n condition e r known comes ruled =>
    refine ⟨.of_entry h (mem_of_mem_reached comes) ruled, fun f failed => ?_⟩
    have entry : (runEntry (s.judged n condition) e).result = .error f :=
      result_runEntry_eq_error_iff.mpr ⟨r, ruled, failed⟩
    have entries : (runEntries (s.judged n condition) n.entries).result = .error f :=
      result_runEntries_eq_error_iff.mpr ⟨e, comes, entry⟩
    exact result_evaluate_eq_error_iff.mpr (.inr ⟨condition, known, entries⟩)
  | @condition s n m u waits inner ih =>
    obtain ⟨e, he, hm⟩ := mem_of_conditionNode? waits
    obtain ⟨unnegated, fails⟩ := ih fun asks => h (.inside (Node.mem_subnodes_of_entry he hm) asks)
    refine ⟨unnegated, fun f failed => ?_⟩
    have condition := result_conditionOf_eq_error_iff.mpr ⟨m, waits, fails f failed⟩
    exact result_evaluate_eq_error_iff.mpr (.inl condition)
  | @inside s n u w v outer visit inner ihu ihw =>
    obtain ⟨unnegated, fails⟩ := ihu h
    obtain ⟨below, failsBelow⟩ := ihw (unnegated.inside _ (Use.node_mem_subnodes visit))
    refine ⟨below, fun f failed => ?_⟩
    exact fails f (.inl (Use.ending_of_visit unnegated visit (failsBelow f failed)))

/-- A rule that breaks down itself was not brought to it by a rule below. -/
theorem innermost_of_breakdown {u : Use} {b : Breakdown} (h : u.Unnegated)
    (broken : u.ending = .error (.breakdown b)) : u.Innermost := by
  intro v hv w inner e ended hard
  have fails := (fails_of_uses inner (h.inside _ (Use.node_mem_subnodes hv))).2
  have ⟨f, failed⟩ : ∃ f, w.Fails f := by
    cases e with
    | fault f => exact ⟨f, .inl ended⟩
    | breakdown b => exact ⟨_, .inr ⟨b, ended, rfl⟩⟩
    | replaced => cases hard
  have fault := Use.ending_of_visit h hv (fails f failed)
  rw [broken] at fault
  cases fault

/-- A run fails only as some rule fails that it uses. -/
theorem exists_uses_of_error {n : Node} (h : ¬ n.Asks .negation) {s : Subject} {f : Fault}
    (failed : (evaluate s n).result = .error f) : ∃ u, Uses s n u ∧ u.Innermost ∧ u.Fails f := by
  induction n using Node.induction generalizing s f with
  | step n ih =>
    rcases result_evaluate_eq_error_iff.mp failed with condition | ⟨condition, known, entries⟩
    · obtain ⟨m, waits, inner⟩ := result_conditionOf_eq_error_iff.mp condition
      obtain ⟨e, he, hm⟩ := mem_of_conditionNode? waits
      have mem := Node.mem_subnodes_of_entry he hm
      obtain ⟨u, uses, innermost, fails⟩ := ih m mem (fun asks => h (.inside mem asks)) inner
      exact ⟨u, .condition waits uses, innermost, fails⟩
    · obtain ⟨e, comes, entry⟩ := result_runEntries_eq_error_iff.mp entries
      obtain ⟨r, ruled, fails⟩ := result_runEntry_eq_error_iff.mp entry
      have own := Uses.own known comes ruled
      have unnegated := Use.Unnegated.of_entry (s := s.judged n condition) h
        (mem_of_mem_reached comes) ruled
      rcases fails with fault | ⟨b, broken, same⟩
      · rcases Use.exists_visit_of_ending unnegated fault with ⟨v, hv, outcome⟩ | none
        · have below := Use.node_mem_subnodes hv
          have mem := Node.mem_subnodes_of_entry (mem_of_mem_reached comes) below
          obtain ⟨w, uses, innermost, fails⟩ :=
            ih v.node mem (fun asks => h (.inside mem asks)) outcome
          exact ⟨w, .inside own hv uses, innermost, fails⟩
        · refine ⟨_, own, fun v hv => ?_, .inl fault⟩
          rw [none] at hv
          cases hv
      · exact ⟨_, own, innermost_of_breakdown unnegated broken, .inr ⟨b, broken, same⟩⟩

theorem conditionNode?_of_ruleless {es : List Entry} (ruleless : ∀ e ∈ es, e.rule = none) :
    conditionNode? es = none := by
  fun_induction conditionNode? es with
  | case1 => rfl
  | case2 n es rule => cases ruleless _ (.head _)
  | case3 keyword n es rule h ih => exact ih fun e he => ruleless e (.tail _ he)
  | case4 e es h ih => exact ih fun e he => ruleless e (.tail _ he)

theorem result_evaluate_of_idle {s : Subject} {n : Node} (idle : n.hasRules = false) :
    (evaluate s n).result = .ok [] := by
  have ruleless : ∀ e ∈ n.entries, e.rule = none := by
    simpa [Node.hasRules] using idle
  have entries : ∀ s : Subject, (runEntries s n.entries).result = .ok [] := by
    intro s
    refine (result_runEntries_eq_nil_iff s _).mpr fun e he => ?_
    obtain ⟨keyword, p, rule⟩ := e
    obtain rfl : rule = none := ruleless _ he
    rfl
  rw [evaluate_eq, conditionOf_eq, conditionNode?_of_ruleless ruleless]
  exact entries _

/-- A negation asks only whether its schema's run ends, and without findings. -/
theorem result_runRule_negation_node {s : Subject} {m : Node} :
    ∃ found, (runRule s .negation (.node m)).result = .ok found ∧
      (found = [] ↔ (evaluate s.stopping m).result ≠ .ok []) := by
  cases ruled : m.hasRules with
  | false =>
    -- a schema without rules is met by everything, and the rule complains of it
    refine ⟨s.bareFinding Keyword.negation.name .idleNegation, ?_, ?_⟩
    · simp [runRule, ruled]
    · simp [result_evaluate_of_idle ruled, Subject.bareFinding]
  | true =>
    cases run : (evaluate s.stopping m).result with
    | ok found =>
      refine ⟨_, result_runRule_negation s ruled run, ?_⟩
      cases found <;> simp [Subject.finding]
    | error f =>
      have kept : (((evaluate s.stopping m).map (·.isEmpty)).recover fun _ => pure false).result =
          .ok false := by
        simp [Logged.recover, Logged.map, run, Except.map]
      refine ⟨[], ?_, by simp⟩
      rw [runRule, if_pos ruled, Logged.result_map, result_lift, kept]
      rfl

/-- Built-in rules bring no fault of their own: a run of theirs that fails does so in the name of a
rule that broke down. -/
theorem exists_ruleFailed_of_builtIn {n : Node}
    (builtIn : n.Every fun m => ∀ e ∈ m.entries, ∀ r, e.rule = some r → r.BuiltIn) {s : Subject}
    {f : Fault} (failed : (evaluate s n).result = .error f) :
    ∃ keyword path text, f = .ruleFailed keyword path text := by
  induction n using Node.induction generalizing s f with
  | step n ih =>
    have below : ∀ m ∈ n.subnodes, ∀ {s f}, (evaluate s m).result = .error f →
        ∃ keyword path text, f = .ruleFailed keyword path text := fun m mem =>
      ih m mem (builtIn.of_mem mem)
    rcases result_evaluate_eq_error_iff.mp failed with condition | ⟨condition, -, entries⟩
    · obtain ⟨m, waits, inner⟩ := result_conditionOf_eq_error_iff.mp condition
      obtain ⟨e, he, hm⟩ := mem_of_conditionNode? waits
      exact below m (Node.mem_subnodes_of_entry he hm) inner
    · obtain ⟨e, comes, entry⟩ := result_runEntries_eq_error_iff.mp entries
      have he := mem_of_mem_reached comes
      obtain ⟨⟨handler, kind⟩, ruled, fault | ⟨b, -, rfl⟩⟩ := result_runEntry_eq_error_iff.mp entry
      · obtain ⟨k, rfl⟩ := builtIn.root e he _ ruled
        have ended : (runRule (s.judged n condition) k e.param).result = .error (.fault f) := fault
        by_cases negation : k = .negation
        · subst negation
          generalize e.param = p at ended
          cases p with
          | node m =>
            obtain ⟨found, passes, -⟩ :=
              result_runRule_negation_node (s := s.judged n condition) (m := m)
            cases passes.symm.trans ended
          | _ => cases ended
        · obtain ⟨v, hv, outcome⟩ := (transparent_runRule negation f).mp ended
          exact below v.node (Node.mem_subnodes_of_entry he (mem_subnodes_of_visit hv)) outcome
      · exact ⟨_, _, _, rfl⟩

/-- Without negations a run that uses a rule that fails gives no findings but fails as that rule
does, named after the innermost that broke down, and it fails for nothing else. A negation itself
never fails, and holds where its schema finds something or fails. -/
theorem evaluate_abort (s : Subject) (n : Node) :
    (¬ n.Asks .negation →
      (∀ u, Uses s n u →
        (∀ f, u.ending = .error (.fault f) → (evaluate s n).result = .error f) ∧
        ∀ b, u.ending = .error (.breakdown b) → u.Innermost ∧
          (evaluate s n).result = .error (.ruleFailed u.keyword u.subject.path.text b.text)) ∧
      ∀ f, (evaluate s n).result = .error f → ∃ u, Uses s n u ∧ u.Innermost ∧
        (u.ending = .error (.fault f) ∨ ∃ b, u.ending = .error (.breakdown b) ∧
          f = .ruleFailed u.keyword u.subject.path.text b.text)) ∧
    ∀ keyword kind m, ∃ found,
      (runEntry s (.mk keyword (.node m) (some ⟨.builtin .negation, kind⟩))).result = .ok found ∧
        (found = [] ↔ (evaluate s.stopping m).result ≠ .ok []) := by
  refine ⟨fun h => ⟨fun u uses => ?_, fun f => exists_uses_of_error h⟩,
    fun keyword kind m => ?_⟩
  · obtain ⟨unnegated, fails⟩ := fails_of_uses uses h
    constructor
    · exact fun f fault => fails f (.inl fault)
    · intro b broken
      exact ⟨innermost_of_breakdown unnegated broken, fails _ (.inr ⟨b, broken, rfl⟩)⟩
  · obtain ⟨found, ends, holds⟩ := result_runRule_negation_node (s := s) (m := m)
    refine ⟨found, ?_, holds⟩
    rw [runEntry, result_settle, ends]

/-- A rule of a user that always breaks down. -/
def ratioRule : CustomRule where
  label := "ratio"
  apply _ := .crashed ⟨"ZeroDivisionError", "division by zero"⟩

def ratioRules : Listing Rule := Rule.builtins.put "ratio" ⟨.custom ratioRule, .custom⟩

/-- The user's rule on a member, in a branch of a conjunction. -/
def ratioSchema : Value :=
  .object .mutable [("allOf", .list [.object .mutable [("properties",
    .object .mutable [("p", .object .mutable [("ratio", .bool true)])])]])]

def ratioMember : Node := .mk .strict [.mk "ratio" (.plain (.bool true))
  (some ⟨.custom ratioRule, .custom⟩)] [] []

def ratioBranch : Node := .mk .strict [.mk "properties" (.named [("p", ratioMember)])
  (some ⟨.builtin .properties, .structural⟩)] [] []

def ratioNode : Node := .mk .strict [.mk "allOf" (.nodes [ratioBranch])
  (some ⟨.builtin (.combine .allOf), .logical⟩)] [] []

theorem not_asks_ratioNode : ¬ ratioNode.Asks .negation := by
  have single : ∀ (m : Mode) (k : String) (p : Param) (r : Rule),
      r.handler ≠ .builtin .negation → (∀ n ∈ p.subnodes, ¬ n.Asks .negation) →
      ¬ (Node.mk m [.mk k p (some r)] [] []).Asks .negation := by
    intro m k p r plain below asks
    cases asks with
    | own mem ruled handler =>
      obtain rfl := List.mem_singleton.mp mem
      cases ruled
      exact plain handler
    | inside sub asks =>
      obtain ⟨e, he, hn⟩ := Node.mem_subnodes.mp sub
      obtain rfl := List.mem_singleton.mp he
      exact below _ hn asks
  refine single _ _ _ _ nofun fun n hn => ?_
  obtain rfl := List.mem_singleton.mp hn
  refine single _ _ _ _ nofun fun n hn => ?_
  obtain rfl := List.mem_singleton.mp hn
  exact single _ _ _ _ nofun nofun

/-- The rule breaks down at the member of the branch, and the run fails in its name. -/
theorem evaluate_abort_ratioNode :
    let s : Subject := ⟨{}, .object .mutable [("p", .ofInt 1)], .ofString "$"⟩
    let place := (s.path.child (.branch 0)).child (.member "p")
    (compileSchema ratioRules .strict ratioSchema).result = .ok ratioNode ∧
    ¬ ratioNode.Asks .negation ∧
    ∃ u, Uses s ratioNode u ∧ u.keyword = "ratio" ∧ u.subject.path = place ∧
      u.ending = .error (.breakdown ⟨"ZeroDivisionError", "division by zero"⟩) ∧
      u.Innermost ∧
      (evaluate s ratioNode).result =
        .error (.ruleFailed "ratio" place.text "division by zero") := by
  intro s place
  have compiled : (compileSchema ratioRules .strict ratioSchema).result = .ok ratioNode := rfl
  let top := s.judged ratioNode none
  let branch := (branchAt top 0).judged ratioBranch none
  let member := (branch.into (.member "p") (.ofInt 1)).judged ratioMember none
  have root : Uses s ratioNode ⟨top, _, _, _⟩ := .own rfl (.head _) rfl
  have below : Uses (branchAt top 0) ratioBranch ⟨branch, _, _, _⟩ := .own rfl (.head _) rfl
  have last : Uses (branch.into (.member "p") (.ofInt 1)) ratioMember ⟨member, _, _, _⟩ :=
    .own rfl (.head _) rfl
  have uses := root.inside (.head _) (below.inside (.head _) last)
  have broken := (((evaluate_abort s ratioNode).1 not_asks_ratioNode).1 _ uses).2 _ rfl
  exact ⟨compiled, not_asks_ratioNode, _, uses, rfl, rfl, rfl, broken.1, broken.2⟩

end Conform.Rules
