import Mathlib.Data.List.Forall2
import Conform.Proofs.Tree.Induction
import Conform.Rules.Evaluate

/-! The walk over a value in one shape. Every recursion inside a rule is `gatherAll` over a list of
visits that is known before the first of them, so a law of `gatherAll` is a law of all of these. -/
namespace Conform

section

variable {α ε : Type} {stop : Bool}

namespace Rules

theorem result_gather (first : Logged ε (List Finding)) (rest : Unit → Logged ε (List Finding)) :
    (gather stop first rest).result = first.result >>= fun found =>
      if stop && !found.isEmpty then .ok found else (rest ()).result.map (found ++ ·) := by
  unfold gather
  rw [Logged.result_bind]
  congr 1
  funext found
  split
  · rfl
  · rw [Logged.result_bind]
    rfl

/-- Neither stopping nor what comes later hides that something is found. -/
theorem result_gather_eq_nil_iff {first : Logged ε (List Finding)}
    {rest : Unit → Logged ε (List Finding)} :
    (gather stop first rest).result = .ok [] ↔
      first.result = .ok [] ∧ (rest ()).result = .ok [] := by
  rw [result_gather]
  cases hf : first.result with
  | error e => simp [bind, Except.bind]
  | ok found =>
    cases found with
    | nil => cases (rest ()).result <;> simp [bind, Except.bind, Except.map]
    | cons f fs =>
      cases stop <;> cases (rest ()).result <;> simp [bind, Except.bind, Except.map]

theorem result_gatherAll_eq_nil_iff {f : α → Logged ε (List Finding)} {as : List α} :
    (gatherAll stop f as).result = .ok [] ↔ ∀ a ∈ as, (f a).result = .ok [] := by
  induction as with
  | nil => simp [gatherAll]
  | cons a as ih => rw [gatherAll, result_gather_eq_nil_iff, ih, List.forall_mem_cons]

/-- The entries of a list whose name the object has, with the member under that name. -/
def present (ms : List (String × Value)) (l : List (String × α)) : List (String × α × Value) :=
  l.filterMap fun e => (Listing.get? e.1 ms).map fun v => (e.1, e.2, v)

theorem mem_present {ms : List (String × Value)} {l : List (String × α)}
    {t : String × α × Value} :
    t ∈ present ms l ↔ (t.1, t.2.1) ∈ l ∧ Listing.get? t.1 ms = some t.2.2 := by
  obtain ⟨name, a, v⟩ := t
  simp only [present, List.mem_filterMap, Option.map_eq_some_iff, Prod.mk.injEq]
  constructor
  · rintro ⟨⟨n, b⟩, hb, w, hw, rfl, rfl, rfl⟩
    exact ⟨hb, hw⟩
  · rintro ⟨ha, hv⟩
    exact ⟨(name, a), ha, v, hv, rfl, rfl, rfl⟩

/-- The schemas of the patterns that match a name. Patterns and schemas go in step. -/
def matching (name : String) (ps : List Pattern) (ns : List (String × Node)) : List Node :=
  ((ps.zip ns).filter fun t => t.1.search name).map (·.2.2)

theorem mem_matching {name : String} {ps : List Pattern} {ns : List (String × Node)} {n : Node} :
    n ∈ matching name ps ns ↔
      ∃ p key, (p, key, n) ∈ ps.zip ns ∧ p.search name = true := by
  simp only [matching, List.mem_map, List.mem_filter]
  constructor
  · rintro ⟨⟨p, key, m⟩, ⟨ht, hp⟩, rfl⟩
    exact ⟨p, key, ht, hp⟩
  · rintro ⟨p, key, ht, hp⟩
    exact ⟨(p, key, n), ⟨ht, hp⟩, rfl⟩

/-- The node whose outcome the clauses of a condition wait for. -/
def conditionNode? : List Entry → Option Node
  | [] => none
  | .mk keyword (.node n) (some _) :: es =>
    if keyword = Clause.condition.name then some n else conditionNode? es
  | _ :: es => conditionNode? es

/-- The first finding, as something else has to say it. -/
def firstAs (f : Finding → Finding) (found : List Finding) : List Finding :=
  found.head?.toList.map f

@[simp] theorem firstAs_eq_nil_iff {f : Finding → Finding} {found : List Finding} :
    firstAs f found = [] ↔ found = [] := by
  cases found <;> simp [firstAs]

theorem result_map_firstAs_eq_nil_iff {x : Logged ε (List Finding)} {f : Finding → Finding} :
    (x.map (firstAs f)).result = .ok [] ↔ x.result = .ok [] := by
  rw [Logged.result_map]
  cases x.result <;> simp [Except.map]

end Rules

end

namespace Rules

variable (s : Subject) (ms : List (String × Value))

@[simp] theorem result_lift {α : Type} (x : Evaluating α) :
    (lift x).result = x.result.mapError .fault := rfl

theorem runProperties_eq (ns : List (String × Node)) :
    runProperties s ms ns = gatherAll s.frame.stopAtFirst
      (fun t => evaluate (s.into (.member t.1) t.2.2) t.2.1) (present ms ns) := by
  induction ns with
  | nil => simp [runProperties, present, gatherAll]
  | cons e ns ih =>
    obtain ⟨name, n⟩ := e
    cases h : Listing.get? name ms <;>
      simp [runProperties, present, h, gatherAll, ih]

theorem runMatching_eq (name : String) (ps : List Pattern) (ns : List (String × Node)) :
    runMatching s name ps ns =
      gatherAll s.frame.stopAtFirst (evaluate s) (matching name ps ns) := by
  induction ps generalizing ns with
  | nil => simp [runMatching, matching, gatherAll]
  | cons p ps ih =>
    cases ns with
    | nil => simp [runMatching, matching, gatherAll]
    | cons e ns =>
      cases h : p.search name <;> simp [runMatching, matching, h, gatherAll, ih]

theorem runItems_eq (i : Nat) (xs : List Value) (ns : List Node) :
    runItems s i xs ns = gatherAll s.frame.stopAtFirst
      (fun t => evaluate (s.into (.element t.2) t.1.1) t.1.2) ((xs.zip ns).zipIdx i) := by
  induction xs generalizing i ns with
  | nil => simp [runItems, gatherAll]
  | cons x xs ih => cases ns <;> simp [runItems, gatherAll, ih]

theorem runDependencies_eq (ds : List (String × Dependency)) :
    runDependencies s ms ds = gatherAll s.frame.stopAtFirst
      (fun t => runDependency s ms t.1 t.2.2 t.2.1) (present ms ds) := by
  induction ds with
  | nil => simp [runDependencies, present, gatherAll]
  | cons e ds ih =>
    obtain ⟨name, d⟩ := e
    cases h : Listing.get? name ms <;>
      simp [runDependencies, present, h, gatherAll, ih]

theorem result_readPatterns_eq_ok_iff {names : List String} {ps : List Pattern} :
    (readPatterns s names).result = .ok ps ↔
      List.Forall₂ (fun name p => Pattern.compile name = .ok p) names ps := by
  induction names generalizing ps with
  | nil => simp [readPatterns, eq_comm]
  | cons name names ih =>
    rw [List.forall₂_cons_left_iff, readPatterns]
    cases hp : Pattern.compile name with
    | ok p =>
      simp only [Logged.result_bind_eq_ok_iff, ih, Logged.result_pure, Except.ok.injEq]
      constructor
      · rintro ⟨ps, hps, rfl⟩
        exact ⟨p, ps, rfl, hps, rfl⟩
      · rintro ⟨q, ps, rfl, hps, rfl⟩
        exact ⟨ps, hps, rfl⟩
    | error r => cases r <;> simp

/-- A branch of a conjunction is evaluated at a path of its own, to its first finding. -/
def branchAt (i : Nat) : Subject := { s.stopping with path := s.path.child (.branch i) }

theorem runConjunction_eq (i : Nat) (ns : List Node) :
    runConjunction s i ns = gatherAll s.frame.stopAtFirst
      (fun t => (evaluate (branchAt s t.2) t.1).map (firstAs (conjunctFinding t.2)))
      (ns.zipIdx i) := by
  induction ns generalizing i with
  | nil => simp [runConjunction, gatherAll]
  | cons n ns ih =>
    rw [runConjunction, List.zipIdx_cons, gatherAll, ih]
    rfl

/-- Whether a value meets a node; a run that fails does not say so. -/
def passes (n : Node) : Bool :=
  match (evaluate s.stopping n).result with
  | .ok found => found.isEmpty
  | .error _ => false

theorem passes_eq {n : Node} {found : List Finding}
    (h : (evaluate s.stopping n).result = .ok found) : passes s n = found.isEmpty := by
  rw [passes, h]

/-- Where no run fails, a disjunction is one over all its schemas, looked at or not. -/
theorem result_holdsSome {ns : List Node}
    (runs : ∀ n ∈ ns, ∃ found, (evaluate s.stopping n).result = .ok found) :
    (holdsSome s ns).result = .ok (ns.any (passes s)) := by
  induction ns with
  | nil => simp [holdsSome]
  | cons n ns ih =>
    rw [List.forall_mem_cons] at runs
    obtain ⟨found, hf⟩ := runs.1
    rw [holdsSome, Logged.result_bind, hf, List.any_cons, passes_eq s hf]
    cases found with
    | nil => rfl
    | cons => exact ih runs.2

theorem result_countHolding {ns : List Node}
    (runs : ∀ n ∈ ns, ∃ found, (evaluate s.stopping n).result = .ok found) :
    (countHolding s ns).result = .ok (ns.countP (passes s)) := by
  induction ns with
  | nil => simp [countHolding]
  | cons n ns ih =>
    rw [List.forall_mem_cons] at runs
    obtain ⟨found, hf⟩ := runs.1
    rw [countHolding, Logged.result_bind, hf, List.countP_cons, passes_eq s hf]
    change (countHolding s ns >>= fun rest => _).result = _
    rw [Logged.result_bind, ih runs.2]
    cases found <;> rfl

/-- A negation whose schema runs to an end asks for the opposite. -/
theorem result_runRule_negation {n : Node} {found : List Finding} (ruled : n.hasRules)
    (h : (evaluate s.stopping n).result = .ok found) :
    (runRule s .negation (.node n)).result =
      .ok (if found.isEmpty then s.finding Keyword.negation.name .negated else []) := by
  have run : (((evaluate s.stopping n).map (·.isEmpty)).recover fun _ => pure false).result =
      .ok found.isEmpty := by
    simp [Logged.recover, Logged.map, h, Except.map]
  rw [runRule, if_pos ruled, Logged.result_map, result_lift, run]
  rfl

theorem conditionOf_eq (es : List Entry) :
    conditionOf s es = match conditionNode? es with
      | none => pure none
      | some n => (evaluate s.stopping n).map fun found => some found.isEmpty := by
  fun_induction conditionNode? es with
  | case1 => rfl
  | case2 n es rule => simp [conditionOf]
  | case3 keyword n es rule h ih => simpa [conditionOf, h] using ih
  | case4 e es h ih => rw [conditionOf.eq_3 _ _ _ h, ih]

theorem mem_of_conditionNode? {es : List Entry} {n : Node} (h : conditionNode? es = some n) :
    ∃ e ∈ es, n ∈ e.param.subnodes := by
  fun_induction conditionNode? es with
  | case1 => contradiction
  | case2 m es rule =>
    cases h
    exact ⟨_, .head _, .head _⟩
  | case3 keyword m es rule hk ih =>
    obtain ⟨e, he, hn⟩ := ih h
    exact ⟨e, .tail _ he, hn⟩
  | case4 e es hne ih =>
    obtain ⟨e, he, hn⟩ := ih h
    exact ⟨e, .tail _ he, hn⟩

theorem evaluate_eq (n : Node) :
    evaluate s n = conditionOf (s.enter n.entries n.patterns) n.entries >>= fun condition =>
      runEntries ((s.enter n.entries n.patterns).under condition) n.entries := by
  cases n
  rw [evaluate]
  rfl

theorem result_runEntries_cons (e : Entry) (es : List Entry) :
    (runEntries s (e :: es)).result = (runEntry s e).result >>= fun found =>
      if s.frame.stopAtFirst && !found.isEmpty then .ok (found.take 1)
      else (runEntries s es).result.map (found ++ ·) := by
  rw [runEntries, Logged.result_bind]
  congr 1
  funext found
  split
  · rfl
  · rw [Logged.result_bind]
    rfl

theorem result_runEntries_eq_nil_iff (es : List Entry) :
    (runEntries s es).result = .ok [] ↔ ∀ e ∈ es, (runEntry s e).result = .ok [] := by
  induction es with
  | nil => simp [runEntries]
  | cons e es ih =>
    rw [result_runEntries_cons, List.forall_mem_cons, ← ih]
    cases (runEntry s e).result with
    | error f => simp [bind, Except.bind]
    | ok found =>
      cases found <;> cases s.frame.stopAtFirst <;> cases (runEntries s es).result <;>
        simp [bind, Except.bind, Except.map]

theorem result_settle (keyword : String) (path : Path) (x : Checking (List Finding)) :
    (settle keyword path x).result = match x.result with
      | .ok found => .ok found
      | .error (.replaced found) => .ok found
      | .error (.fault f) => .error f
      | .error (.breakdown b) => .error (.ruleFailed keyword path.text b.text) := by
  unfold settle
  split <;> simp_all

end Rules

end Conform
