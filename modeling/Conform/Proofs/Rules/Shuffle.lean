import Conform.Proofs.Rearranged
import Conform.Proofs.Rules.Walk

/-! Runs that find the same in another order. A run that does not stop looks at everything, so it makes
no difference in which order it does. -/
namespace Conform.Rules

/-- Both runs end with the same findings in some order, or both fail. -/
inductive Shuffle {ε : Type} : Except ε (List Finding) → Except ε (List Finding) → Prop
  | found {all others : List Finding} (perm : all.Perm others) : Shuffle (.ok all) (.ok others)
  | failed (e f : ε) : Shuffle (.error e) (.error f)

namespace Shuffle

variable {α β ε : Type} {x y z r t : Except ε (List Finding)}

theorem refl (x : Except ε (List Finding)) : Shuffle x x := by
  cases x with
  | ok found => exact .found (.refl found)
  | error e => exact .failed e e

theorem trans (h : Shuffle x y) (h' : Shuffle y z) : Shuffle x z := by
  cases h with
  | found perm =>
    cases h' with
    | found perm' => exact .found (perm.trans perm')
  | failed e f =>
    cases h' with
    | failed _ g => exact .failed e g

theorem join (h : Shuffle x y) (rest : Shuffle r t) :
    Shuffle (x >>= fun found => r.map (found ++ ·)) (y >>= fun found => t.map (found ++ ·)) := by
  cases h with
  | failed e f => exact .failed e f
  | found perm =>
    cases rest with
    | failed e f => exact .failed e f
    | found more => exact .found (perm.append more)

/-- What is found first may as well be found second. -/
theorem join_swap (x y r : Except ε (List Finding)) :
    Shuffle (x >>= fun found => (y >>= fun more => r.map (more ++ ·)).map (found ++ ·))
      (y >>= fun found => (x >>= fun more => r.map (more ++ ·)).map (found ++ ·)) := by
  cases x with
  | error e =>
    cases y with
    | error f => exact .failed e f
    | ok => exact .failed e e
  | ok found =>
    cases y with
    | error f => exact .failed f f
    | ok more =>
      cases r with
      | error e => exact .failed e e
      | ok last =>
        have swapped : (found ++ (more ++ last)).Perm (more ++ (found ++ last)) := by
          rw [← List.append_assoc, ← List.append_assoc]
          exact List.perm_append_comm.append_right last
        exact .found swapped

theorem result_gatherAll_cons (f : α → Logged ε (List Finding)) (a : α) (as : List α) :
    (gatherAll false f (a :: as)).result =
      (f a).result >>= fun found => (gatherAll false f as).result.map (found ++ ·) := by
  rw [Rules.gatherAll, result_gather]
  simp

theorem gatherAll_forall₂ {f : α → Logged ε (List Finding)} {g : β → Logged ε (List Finding)}
    {as : List α} {bs : List β}
    (h : List.Forall₂ (fun a b => Shuffle (f a).result (g b).result) as bs) :
    Shuffle (gatherAll false f as).result (gatherAll false g bs).result := by
  induction h with
  | nil => exact .refl _
  | cons first _ ih =>
    rw [result_gatherAll_cons, result_gatherAll_cons]
    exact first.join ih

theorem gatherAll_perm (f : α → Logged ε (List Finding)) {as bs : List α} (h : as.Perm bs) :
    Shuffle (gatherAll false f as).result (gatherAll false f bs).result := by
  induction h with
  | nil => exact .refl _
  | cons a _ ih =>
    rw [result_gatherAll_cons, result_gatherAll_cons]
    exact (Shuffle.refl _).join ih
  | swap a b as =>
    simp only [result_gatherAll_cons]
    exact join_swap _ _ _
  | trans _ _ ih ih' => exact ih.trans ih'

/-- A walk over visits in some order, whose visits find the same in some order. -/
theorem gatherAll {f : α → Logged ε (List Finding)} {g : β → Logged ε (List Finding)}
    {as : List α} {bs : List β}
    (h : Rearranged (fun a b => Shuffle (f a).result (g b).result) as bs) :
    Shuffle (gatherAll false f as).result (gatherAll false g bs).result := by
  obtain ⟨_, related, perm⟩ := h.exists_perm
  exact (gatherAll_forall₂ related).trans (gatherAll_perm g perm)

/-- A rule that only evaluates schemas takes every failure for what it is. -/
theorem settle_lift {keyword : String} {path : Path} {x y : Evaluating (List Finding)}
    (h : Shuffle x.result y.result) :
    Shuffle (settle keyword path (lift x)).result (settle keyword path (lift y)).result := by
  rw [result_settle, result_settle, result_lift, result_lift]
  generalize x.result = u, y.result = v at h
  cases h with
  | found perm => exact .found perm
  | failed e f => exact .failed e f

end Shuffle

/-- The subject among other siblings: with other names declared and other patterns read. -/
def Subject.among (s : Subject) (declared : List String) (patterns : List Pattern) : Subject :=
  { s with frame := { s.frame with declared, patterns } }

section

variable {s : Subject} {declared : List String} {patterns : List Pattern}

/-- A node brings its own names and patterns along. -/
theorem evaluate_among (s : Subject) (declared : List String) (patterns : List Pattern) :
    evaluate (s.among declared patterns) = evaluate s := by
  funext n
  rw [evaluate_eq, evaluate_eq]
  rfl

theorem evaluate_stopping_among :
    evaluate (s.among declared patterns).stopping = evaluate s.stopping :=
  evaluate_among s.stopping declared patterns

theorem evaluate_into_among (step : Step) (v : Value) :
    evaluate ((s.among declared patterns).into step v) = evaluate (s.into step v) :=
  evaluate_among (s.into step v) declared patterns

theorem evaluate_into_stopping_among (step : Step) (v : Value) :
    evaluate ((s.among declared patterns).into step v).stopping =
      evaluate (s.into step v).stopping :=
  evaluate_among (s.into step v).stopping declared patterns

theorem evaluate_branchAt_among (i : Nat) :
    evaluate (branchAt (s.among declared patterns) i) = evaluate (branchAt s i) :=
  evaluate_among (branchAt s i) declared patterns

theorem runDependency_among (ms : List (String × Value)) (name : String) (v : Value)
    (d : Dependency) : runDependency (s.among declared patterns) ms name v d =
      runDependency s ms name v d := by
  cases d with
  | names | unusable => rfl
  | node n =>
    rw [runDependency, runDependency, evaluate_into_stopping_among]
    rfl

theorem holdsSome_among (ns : List Node) :
    holdsSome (s.among declared patterns) ns = holdsSome s ns := by
  induction ns with
  | nil => rfl
  | cons n ns ih => rw [holdsSome, holdsSome, evaluate_stopping_among, ih]

theorem countHolding_among (ns : List Node) :
    countHolding (s.among declared patterns) ns = countHolding s ns := by
  induction ns with
  | nil => rfl
  | cons n ns ih => rw [countHolding, countHolding, evaluate_stopping_among, ih]

theorem readPatterns_among (names : List String) :
    readPatterns (s.among declared patterns) names = readPatterns s names := by
  induction names with
  | nil => rfl
  | cons name names ih =>
    rw [readPatterns, readPatterns, ih]
    rfl

/-- Only the extra members are looked for among what siblings say. -/
theorem runRule_among (k : Keyword) (p : Param)
    (same : ∀ ms, extras (s.among declared patterns).frame ms = extras s.frame ms) :
    runRule (s.among declared patterns) k p = runRule s k p := by
  cases k
  case combine c =>
    cases p
    case nodes ns =>
      cases ns with
      | nil => cases c <;> rfl
      | cons n ns =>
        cases c <;>
          simp only [runRule, runConjunction_eq, evaluate_branchAt_among, holdsSome_among,
            countHolding_among] <;>
          rfl
    all_goals cases c <;> rfl
  all_goals cases p
  case properties.named ns =>
    simp only [runRule, runProperties_eq, evaluate_into_among]
    rfl
  case patternProperties.named ns =>
    simp only [runRule, runMatching_eq, evaluate_into_among, readPatterns_among]
    rfl
  case additionalProperties.plain v =>
    cases v
    case bool b =>
      cases b
      · simp only [runRule, same]
        rfl
      · rfl
    all_goals rfl
  case additionalProperties.node n =>
    simp only [runRule, same, evaluate_into_stopping_among]
    rfl
  case items.node n =>
    simp only [runRule, evaluate_into_among]
    rfl
  case items.nodes ns =>
    simp only [runRule, runItems_eq, evaluate_into_among]
    rfl
  case dependencies.dependencies ds =>
    simp only [runRule, runDependencies_eq, runDependency_among]
    rfl
  case negation.node n =>
    simp only [runRule, evaluate_stopping_among]
    rfl
  case clause.node c n =>
    simp only [runRule, evaluate_stopping_among]
    rfl
  all_goals rfl

theorem extras_among (names : declared.Perm s.frame.declared)
    (reads : patterns.Perm s.frame.patterns) (ms : List (String × Value)) :
    extras (s.among declared patterns).frame ms = extras s.frame ms := by
  unfold extras Subject.among
  refine List.filter_congr fun m _ => ?_
  rw [names.contains_eq, reads.any_eq]

/-- Nobody stops a run between its entries. -/
theorem result_runEntries_exhaustive (exhaustive : s.frame.stopAtFirst = false) (es : List Entry) :
    (runEntries s es).result = (gatherAll false (runEntry s) es).result := by
  induction es with
  | nil => rfl
  | cons e es ih =>
    rw [result_runEntries_cons, Shuffle.result_gatherAll_cons, ih, exhaustive]
    simp

end

end Conform.Rules
