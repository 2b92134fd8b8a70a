import Conform.Proofs.Rules.Relocate
import Conform.Proofs.Rules.Safety
import Conform.Proofs.Rules.Truncation

/-! What a conjunction finds. Its branches are run at paths of their own and to their first findings
only. Both make no difference to which of them fail, and the first findings are those of full
runs. -/
namespace Conform

/-- What a conjunction says of a finding of its branch at an index: the same of the same place, with
the branch named in the message. -/
structure Finding.PassedOn (i : Nat) (inner f : Finding) : Prop where
  path : f.path = inner.path
  tag : f.tag = inner.tag
  value : f.value = inner.value
  param : f.param = inner.param
  message : f.message =
    s!"failed to validate against schema at allOf[{i}] for keyword '{inner.tag}': " ++ inner.message

/-- The node of a schema that is nothing but a conjunction. -/
def Node.conjunction (mode : Mode) (ns : List Node) : Node :=
  .mk mode [.mk "allOf" (.nodes ns) (some (.of (.combine .allOf)))] [] []

theorem compiles_conjunction {mode : Mode} {raws : List Value} {ns : List Node}
    (filled : raws ≠ []) (compile : List.Forall₂ (Compiles Rule.builtins mode) raws ns)
    (a b : Access) :
    Compiles Rule.builtins mode (.object a [("allOf", .array b raws)]) (.conjunction mode ns) := by
  have member := Compile.MemberOf.of_keyword (Compile.ParamOf.branches (c := .allOf) (a := b) filled
    compile)
  exact Compile.compiles_iff.mpr ⟨a, _, _, [], rfl, .cons member .nil, .nil, rfl⟩

namespace Rules

theorem passedOn_conjunctFinding (i : Nat) (inner : Finding) :
    inner.PassedOn i (conjunctFinding i inner) := ⟨rfl, rfl, rfl, rfl, rfl⟩

variable {s : Subject} {n : Node} {ns : List Node}

/-- A node sets the parts of the frame that are its own, whatever stands in them. -/
theorem evaluate_within (s : Subject) (entries : List Entry) (patterns : List Pattern)
    (condition : Option Bool) (n : Node) :
    evaluate ((s.enter entries patterns).under condition) n = evaluate s n := by
  rw [evaluate_eq, evaluate_eq]
  rfl

/-- What a conjunction takes from its branch at an index. -/
def visitBranch (s : Subject) (t : Node × Nat) : Evaluating (List Finding) :=
  (evaluate (branchAt s t.2) t.1).map (firstAs (conjunctFinding t.2))

/-- The branches see nothing of the conjunction but its path. -/
theorem visitBranch_within (s : Subject) (entries : List Entry) :
    visitBranch ((s.enter entries []).under none) = visitBranch s :=
  funext fun t => congrArg (Logged.map _) (evaluate_within (branchAt s t.2) entries [] none t.1)

theorem result_settle_lift (keyword : String) (path : Path) (x : Evaluating (List Finding)) :
    (settle keyword path (lift x)).result = x.result := by
  rw [result_settle, result_lift]
  cases x.result with
  | ok => rfl
  | error => rfl

/-- A run to the end of a node with one entry is that of the entry. -/
theorem result_runEntries_singleton (full : s.frame.stopAtFirst = false) (e : Entry) :
    (runEntries s [e]).result = (runEntry s e).result := by
  rw [result_runEntries_cons, full]
  cases (runEntry s e).result with
  | ok found => exact congrArg Except.ok (List.append_nil found)
  | error => rfl

theorem result_evaluate_conjunction (full : s.frame.stopAtFirst = false) (mode : Mode)
    (filled : ns ≠ []) : (evaluate s (.conjunction mode ns)).result =
      (gatherAll false (visitBranch s) ns.zipIdx).result := by
  obtain ⟨n, ns, rfl⟩ := List.exists_cons_of_ne_nil filled
  let entry : Entry := .mk "allOf" (.nodes (n :: ns)) (some (.of (.combine .allOf)))
  let inner := (s.enter [entry] []).under none
  have run : (evaluate s (.conjunction mode (n :: ns))).result =
      (runEntries inner [entry]).result := by
    rw [evaluate_eq]
    rfl
  have conjunction : (runEntry inner entry).result = (runConjunction inner 0 (n :: ns)).result :=
    result_settle_lift ..
  rw [run, result_runEntries_singleton (s := inner) full, conjunction, runConjunction_eq, ← full,
    ← visitBranch_within s [entry]]
  rfl

/-- Two runs that end in findings both or neither, and find nothing both or neither. -/
abbrev SameVerdict := Mirrors (fun _ _ : Fault => True)
  (fun found found' : List Finding => found = [] ↔ found' = [])

theorem SameVerdict.eq_nil_iff {x y : Except Fault (List Finding)} (h : SameVerdict x y) :
    x = .ok [] ↔ y = .ok [] := by
  cases h with
  | ok same => simpa using same
  | error => simp

theorem onto_ofString (root : String) (p : Path) : (Path.ofString root).onto p = p :=
  congrArg (Path.mk p.root) (List.append_nil _)

/-- The verdict on a value does not hang on the path under which it is asked for. -/
theorem sameVerdict_elsewhere (relocates : ∀ base, Relocates base n) (s : Subject) (p : Path) :
    SameVerdict (evaluate s n).result (evaluate { s with path := p } n).result := by
  -- both runs are moved from a path without steps
  let start : Subject := { s with path := .ofString "" }
  have here := relocates s.path start
  have there := relocates p start
  simp only [Subject.onto, start, onto_ofString] at here there
  change NodeMirrors _ _ (evaluate s n).result at here
  generalize (evaluate s n).result = x, (evaluate { s with path := p } n).result = y,
    (evaluate { s with path := .ofString "" } n).result = z at here there ⊢
  cases here with
  | error =>
    cases there with
    | error => exact .error trivial
  | ok same =>
    cases there with
    | ok same' =>
      subst same same'
      exact .ok (by simp)

section

variable (cuts : Cuts n) (full : s.frame.stopAtFirst = false) {i : Nat}
include cuts full

/-- A branch's full run at its own path, beside the one that the conjunction makes. -/
theorem cut_branchAt (i : Nat) :
    FaultCut (evaluate { s with path := s.path.child (.branch i) } n).result
      (evaluate (branchAt s i) n).result := by
  have cut := cuts { s with path := s.path.child (.branch i) }
  rwa [Subject.exhaustive, ← full] at cut

/-- Of what a branch's full run gives, the conjunction takes the first. -/
theorem result_visitBranch {found : List Finding}
    (run : (evaluate { s with path := s.path.child (.branch i) } n).result = .ok found) :
    (visitBranch s (n, i)).result = .ok (firstAs (conjunctFinding i) found) := by
  have cut := cut_branchAt cuts full i
  rw [run] at cut
  rw [visitBranch, Logged.result_map]
  generalize (evaluate (branchAt s i) n).result = x at cut
  cases cut with
  | alike first => simp only [Except.map, firstAs, first]

theorem result_visitBranch_eq_nil_iff (relocates : ∀ base, Relocates base n) (p : Path) :
    (visitBranch s (n, i)).result = .ok [] ↔ (evaluate { s with path := p } n).result = .ok [] := by
  rw [visitBranch, result_map_firstAs_eq_nil_iff, ← (cut_branchAt cuts full i).eq_nil_iff]
  exact (sameVerdict_elsewhere relocates { s with path := p } _).eq_nil_iff.symm

end

/-- Whether the run of a node finds something. -/
def rejects (s : Subject) (n : Node) : Bool :=
  match (evaluate s n).result with
  | .ok found => !found.isEmpty
  | .error _ => false

theorem rejects_of_result {found : List Finding} (h : (evaluate s n).result = .ok found) :
    rejects s n = !found.isEmpty := by
  rw [rejects, h]

/-- The full run of a branch at its own path begins with what the conjunction finds there. -/
def AccountsFor (s : Subject) (branch : Node × Nat) (f : Finding) : Prop :=
  ∃ inner rest, (evaluate { s with path := s.path.child (.branch branch.2) } branch.1).result =
    .ok (inner :: rest) ∧ inner.PassedOn branch.2 f

/-- A walk over branches gives one finding for each that rejects the value, in their order. -/
theorem forall₂_gatherAll_visitBranch (full : s.frame.stopAtFirst = false) {alone : Subject}
    (elsewhere : ∃ p, alone = { s with path := p }) {branches : List (Node × Nat)}
    (cuts : ∀ t ∈ branches, Cuts t.1) (relocates : ∀ t ∈ branches, ∀ base, Relocates base t.1)
    (ends : ∀ t ∈ branches, ∃ found, (evaluate alone t.1).result = .ok found) :
    ∃ found, (gatherAll false (visitBranch s) branches).result = .ok found ∧
      List.Forall₂ (AccountsFor s) (branches.filter fun t => rejects alone t.1) found := by
  obtain ⟨p, rfl⟩ := elsewhere
  induction branches with
  | nil => exact ⟨[], rfl, .nil⟩
  | cons t branches ih =>
    obtain ⟨n, i⟩ := t
    rw [List.forall_mem_cons] at cuts relocates ends
    obtain ⟨more, runs, accounts⟩ := ih cuts.2 relocates.2 ends.2
    obtain ⟨aside, ran⟩ := ends.1
    let place := s.path.child (.branch i)
    have verdict := sameVerdict_elsewhere relocates.1 { s with path := p } place
    rw [ran] at verdict
    generalize there : (evaluate { s with path := place } n).result = x at verdict
    cases verdict with
    | @ok _ found same =>
      refine ⟨firstAs (conjunctFinding i) found ++ more, ?_, ?_⟩
      · rw [gatherAll, result_gather, result_visitBranch cuts.1 full there, runs]
        rfl
      · rw [List.filter_cons, rejects_of_result ran]
        cases found with
        | nil =>
          rw [same.mpr rfl]
          exact accounts
        | cons inner rest =>
          obtain ⟨f, fs, rfl⟩ := List.exists_cons_of_ne_nil fun none =>
            List.cons_ne_nil inner rest (same.mp none)
          exact .cons ⟨inner, rest, there, passedOn_conjunctFinding i inner⟩ accounts

theorem relocates_of_compiles {mode : Mode} {raw : Value}
    (compiles : Compiles Rule.builtins mode raw n) (base : Path) : Relocates base n :=
  relocates_of_follows (compiles.every_builtin fun _ => trivial)

theorem cuts_of_compiles {mode : Mode} {raw : Value}
    (compiles : Compiles Rule.builtins mode raw n) : Cuts n :=
  cuts_of_every (compiles.every fun _ _ h => h.usable) (compiles.every_builtin fun _ => trivial)

/-- A conjunction of schemas compiled against the built-in rules finds, in the order of its
branches, one thing for each branch that rejects the value on its own, wherever it is asked: the
first of what the branch finds to the end at its place in the conjunction. So a value meets the
conjunction where it meets each branch on its own. With formats that answer, the branches always
end. -/
theorem evaluate_conjunction {mode : Mode} {raws : List Value} (filled : raws ≠ [])
    (compile : List.Forall₂ (fun raw n => (compileSchema Rule.builtins mode raw).result = .ok n)
      raws ns) (a b : Access) (full : s.frame.stopAtFirst = false) (p : Path) :
    let alone : Subject := { s with path := p }
    ∃ n, (compileSchema Rule.builtins mode (.object a [("allOf", .array b raws)])).result = .ok n ∧
      ((∀ m ∈ ns, ∃ found, (evaluate alone m).result = .ok found) →
        ∃ found, (evaluate s n).result = .ok found ∧
          List.Forall₂ (AccountsFor s) (ns.zipIdx.filter fun t => rejects alone t.1) found) ∧
      (s.frame.Answers → ∀ m ∈ ns, ∃ found, (evaluate alone m).result = .ok found) ∧
      ((evaluate s n).result = .ok [] ↔ ∀ m ∈ ns, (evaluate alone m).result = .ok []) := by
  intro alone
  have compiles : List.Forall₂ (Compiles Rule.builtins mode) raws ns :=
    compile.imp fun _ _ => result_compileSchema_eq_ok_iff.mp
  have origin : ∀ m ∈ ns, ∃ raw, Compiles Rule.builtins mode raw m := fun m hm =>
    have ⟨raw, _, h⟩ := exists_left_of_forall₂ compiles hm
    ⟨raw, h⟩
  have relocates : ∀ m ∈ ns, ∀ base, Relocates base m := fun m hm base =>
    have ⟨_, h⟩ := origin m hm
    relocates_of_compiles h base
  have cuts : ∀ m ∈ ns, Cuts m := fun m hm =>
    have ⟨_, h⟩ := origin m hm
    cuts_of_compiles h
  have filled' : ns ≠ [] := fun none => filled (List.forall₂_nil_right_iff.mp (none ▸ compiles))
  have inner {t : Node × Nat} (ht : t ∈ ns.zipIdx) : t.1 ∈ ns := List.fst_mem_of_mem_zipIdx ht
  have run := result_evaluate_conjunction full mode filled'
  refine ⟨_, result_compileSchema_eq_ok_iff.mpr (compiles_conjunction filled compiles a b),
    fun ends => ?_, fun answers m hm => ?_, ?_⟩
  · rw [run]
    exact forall₂_gatherAll_visitBranch full ⟨p, rfl⟩ (fun t ht => cuts _ (inner ht))
      (fun t ht => relocates _ (inner ht)) fun t ht => ends _ (inner ht)
  · obtain ⟨raw, h⟩ := origin m hm
    have safe : Safe s.frame.formats m :=
      safe_of_compiles h fun _ same name checker => same ▸ answers name checker
    exact safe.runs rfl
  · have each : ∀ t ∈ ns.zipIdx,
        ((visitBranch s t).result = .ok [] ↔ (evaluate alone t.1).result = .ok []) := fun t ht =>
      result_visitBranch_eq_nil_iff (cuts _ (inner ht)) full (relocates _ (inner ht)) p
    rw [run, result_gatherAll_eq_nil_iff, forall₂_congr each,
      ← List.forall_mem_map (f := Prod.fst) (P := fun m => (evaluate alone m).result = .ok []),
      List.zipIdx_map_fst]

/-- A branch that finds two things, one that finds nothing, and a conjunction as a branch. -/
def gatheredSchemas : List Value :=
  [.object .mutable [("required", .list [.string "a", .string "b"])],
    .object .mutable [("type", .string "object")],
    .object .mutable [("allOf", .list [.object .mutable [("required", .list [.string "c"])]])]]

def gatheredNodes : List Node :=
  [.mk .strict [.mk "required" (.plain (.array .frozen [.string "a", .string "b"]))
      (some (.of .required))] [] [],
    .mk .strict [.mk "type" (.plain (.string "object")) (some (.of .type))] [] [],
    .conjunction .strict [.mk .strict [.mk "required" (.plain (.array .frozen [.string "c"]))
      (some (.of .required))] [] []]]

/-- The second branch leaves no trace, and the third wraps what was wrapped before. -/
theorem evaluate_conjunction_gatheredSchemas :
    let s : Subject := ⟨{}, .object .mutable [], .ofString "$"⟩
    gatheredSchemas ≠ [] ∧
    List.Forall₂ (fun raw n => (compileSchema Rule.builtins .strict raw).result = .ok n)
      gatheredSchemas gatheredNodes ∧
    s.frame.stopAtFirst = false ∧ s.frame.Answers ∧
    ∃ n found, (compileSchema Rule.builtins .strict
        (.object .mutable [("allOf", .list gatheredSchemas)])).result = .ok n ∧
      (evaluate s n).result = .ok found ∧
      List.Forall₂ (AccountsFor s) (gatheredNodes.zipIdx.filter fun t => rejects s t.1) found ∧
      found.map (fun f => (f.path.text, f.message)) =
        [("$.allOf[0].a",
            "failed to validate against schema at allOf[0] for keyword 'required': " ++
            "required property 'a' is missing"),
          ("$.allOf[2].allOf[0].c",
            "failed to validate against schema at allOf[2] for keyword 'required': " ++
            "failed to validate against schema at allOf[0] for keyword 'required': " ++
            "required property 'c' is missing")] := by
  intro s
  have filled : gatheredSchemas ≠ [] := nofun
  have compile : List.Forall₂ (fun raw n =>
      (compileSchema Rule.builtins .strict raw).result = .ok n) gatheredSchemas gatheredNodes :=
    .cons rfl (.cons rfl (.cons rfl .nil))
  have answers : s.frame.Answers := Frame.answers_of_builtins rfl
  obtain ⟨n, compiled, accounts, ends, -⟩ :=
    evaluate_conjunction filled compile .mutable .mutable (s := s) rfl s.path
  obtain ⟨found, run, accounts⟩ := accounts (ends answers)
  refine ⟨filled, compile, rfl, answers, n, found, compiled, run, accounts, ?_⟩
  cases compiled
  cases run
  rfl

end Rules

end Conform
