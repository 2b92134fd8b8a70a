import Conform.Proofs.Rules.Cut

/-! The nodes that a rule visits. A walk comes to its items in order until one fails or one ends it,
so a rule that looks at nodes fails with those that it comes to, and with no others. -/
namespace Conform.Rules

section

variable {α β γ ε : Type} {goesOn : β → Bool} {stop : Bool}

/-- The items that a walk comes to. Nothing comes after a failure, nor after an outcome with which
the walk does not go on. -/
def reached (goesOn : β → Bool) (f : α → Except ε β) : List α → List α
  | [] => []
  | a :: as => a :: match f a with
    | .ok b => if goesOn b then reached goesOn f as else []
    | .error _ => []

theorem mem_of_mem_reached {f : α → Except ε β} {as : List α} {a : α}
    (h : a ∈ reached goesOn f as) : a ∈ as := by
  induction as with
  | nil => exact h
  | cons b bs ih =>
    cases h with
    | head => exact .head _
    | tail _ h =>
      split at h
      · split at h
        · exact .tail _ (ih h)
        · cases h
      · cases h

/-- Whatever gives its items one after the other fails as the item does that it stops at. -/
theorem eq_error_iff_exists_reached {ν : Type} {visit : α → ν} {f : ν → Except ε β}
    (walk : List α → Except ε γ) (nil : ∀ e, walk [] ≠ .error e)
    (cons : ∀ a as e, walk (a :: as) = .error e ↔ f (visit a) = .error e ∨
      ∃ b, f (visit a) = .ok b ∧ goesOn b = true ∧ walk as = .error e)
    {as : List α} {e : ε} :
    walk as = .error e ↔ ∃ v ∈ reached goesOn f (as.map visit), f v = .error e := by
  induction as with
  | nil =>
    constructor
    · exact fun h => absurd h (nil e)
    · rintro ⟨a, ha, -⟩
      cases ha
  | cons a as ih =>
    rw [cons, ih, List.map_cons, reached]
    simp only [List.mem_cons, exists_eq_or_imp]
    refine or_congr_right ?_
    cases hf : f (visit a) with
    | error d => simp
    | ok b => cases hb : goesOn b <;> simp [hb]

/-- Where findings are joined, a walk goes on unless it is asked to stop at the first. -/
def joins (stop : Bool) (found : List Finding) : Bool := !(stop && !found.isEmpty)

end

/-- A node to be run, and what on. -/
structure Visit where
  subject : Subject
  node : Node

namespace Visit

def run (v : Visit) : Evaluating (List Finding) := evaluate v.subject v.node

def outcome (v : Visit) : Except Fault (List Finding) := v.run.result

/-- Those of a list of visits that a rule makes which joins their findings. -/
def joined (stop : Bool) (vs : List Visit) : List Visit := reached (joins stop) outcome vs

end Visit

/-- The visits that a built-in rule makes. -/
def Subject.visits (s : Subject) : Keyword → Param → List Visit
  | .properties, .named ns => match s.value with
    | .object _ ms => Visit.joined s.frame.stopAtFirst
        ((present ms ns).map fun t => ⟨s.into (.member t.1) t.2.2, t.2.1⟩)
    | _ => []
  | .patternProperties, .named ns => match s.value, (readPatterns s (ns.map (·.1))).result with
    | .object _ ms, .ok ps => Visit.joined s.frame.stopAtFirst
        (ms.flatMap fun m => (matching m.1 ps ns).map fun n => ⟨s.into (.member m.1) m.2, n⟩)
    | _, _ => []
  | .additionalProperties, .node n => match s.value with
    | .object _ ms => Visit.joined s.frame.stopAtFirst
        ((extras s.frame ms).map fun m => ⟨(s.into (.member m.1) m.2).stopping, n⟩)
    | _ => []
  | .items, .node n => match s.value with
    | .array _ xs => Visit.joined s.frame.stopAtFirst
        (xs.zipIdx.map fun x => ⟨s.into (.element x.2) x.1, n⟩)
    | _ => []
  | .items, .nodes ns => match s.value with
    | .array _ xs => Visit.joined s.frame.stopAtFirst
        ((xs.zip ns).zipIdx.map fun t => ⟨s.into (.element t.2) t.1.1, t.1.2⟩)
    | _ => []
  | .dependencies, .dependencies ds => match s.value with
    | .object _ ms =>
      let come := reached (joins s.frame.stopAtFirst)
        (fun t => (runDependency s ms t.1 t.2.2 t.2.1).result) (present ms ds)
      come.flatMap fun t => t.2.1.subnodes.map fun n => ⟨(s.into (.member t.1) t.2.2).stopping, n⟩
    | _ => []
  | .combine .allOf, .nodes ns =>
    Visit.joined s.frame.stopAtFirst (ns.zipIdx.map fun t => ⟨branchAt s t.2, t.1⟩)
  | .combine .anyOf, .nodes ns =>
    reached (fun found => !found.isEmpty) Visit.outcome (ns.map (⟨s.stopping, ·⟩))
  | .combine .oneOf, .nodes ns => reached (fun _ => true) Visit.outcome (ns.map (⟨s.stopping, ·⟩))
  | .negation, .node n => if n.hasRules then [⟨s.stopping, n⟩] else []
  | .clause c, .node n => if clauseApplies c s.frame.condition then [⟨s.stopping, n⟩] else []
  | _, _ => []

section

variable {α ε : Type} {stop : Bool}

theorem map_eq_error_iff {β : Type} {x : Except ε α} {g : α → β} {e : ε} :
    x.map g = .error e ↔ x = .error e := by
  cases x <;> simp [Except.map]

/-- The step of every walk that joins what it finds. -/
theorem join_eq_error_iff {x r : Except ε (List Finding)} {e : ε}
    {take : List Finding → List Finding} :
    (x >>= fun found => if stop && !found.isEmpty then .ok (take found) else r.map (found ++ ·)) =
        .error e ↔
      x = .error e ∨ ∃ found, x = .ok found ∧ joins stop found = true ∧ r = .error e := by
  cases x with
  | error d => simp [bind, Except.bind]
  | ok found =>
    simp only [bind, Except.bind, joins, Except.ok.injEq, exists_eq_left', reduceCtorEq, false_or]
    cases stop && !found.isEmpty <;> simp [map_eq_error_iff]

theorem plain_words (x : Except ε (List Finding)) :
    ∃ g : List Finding → List Finding, x = x.map g ∧ ∀ found, g found = [] ↔ found = [] :=
  ⟨id, by cases x <;> rfl, fun _ => Iff.rfl⟩

/-- A walk that joins what it finds, each item of which says what a visit found in other words. -/
theorem result_gatherAll_eq_error_iff {ν : Type} (visit : α → ν)
    (out : ν → Except ε (List Finding)) {f : α → Logged ε (List Finding)} {as : List α}
    (words : ∀ a, ∃ g : List Finding → List Finding,
      (f a).result = (out (visit a)).map g ∧ ∀ found, g found = [] ↔ found = []) {e : ε} :
    (gatherAll stop f as).result = .error e ↔
      ∃ v ∈ reached (joins stop) out (as.map visit), out v = .error e := by
  refine eq_error_iff_exists_reached (fun as => (gatherAll stop f as).result) nofun ?_
  intro a as e
  obtain ⟨g, hf, empty⟩ := words a
  rw [gatherAll, result_gather, join_eq_error_iff, hf, map_eq_error_iff]
  refine or_congr_right ?_
  have same : ∀ found, joins stop (g found) = joins stop found := by
    intro found
    have isEmpty : (g found).isEmpty = found.isEmpty := by
      rw [Bool.eq_iff_iff, List.isEmpty_iff, List.isEmpty_iff, empty]
    rw [joins, joins, isEmpty]
  cases out (visit a) <;> simp [Except.map, same]

theorem result_gatherAll_eq_error_iff_self {f : α → Logged ε (List Finding)} {as : List α}
    {e : ε} : (gatherAll stop f as).result = .error e ↔
      ∃ a ∈ reached (joins stop) (fun a => (f a).result) as, (f a).result = .error e := by
  have words := fun a => plain_words (f a).result
  rw [result_gatherAll_eq_error_iff id (fun a => (f a).result) words, List.map_id]

theorem result_gatherAll_append {f : α → Logged ε (List Finding)} {as bs : List α} :
    (gatherAll stop f (as ++ bs)).result =
      (gather stop (gatherAll stop f as) fun _ => gatherAll stop f bs).result := by
  induction as with
  | nil =>
    rw [List.nil_append, result_gather, gatherAll]
    cases (gatherAll stop f bs).result <;> simp [bind, Except.bind, Except.map]
  | cons a as ih =>
    rw [List.cons_append, gatherAll, result_gather, ih, result_gather, result_gather, gatherAll,
      result_gather]
    cases (f a).result with
    | error e => rfl
    | ok found =>
      cases h : stop && !found.isEmpty with
      | true => simp [bind, Except.bind, h]
      | false =>
        cases (gatherAll stop f as).result with
        | error e => simp [bind, Except.bind, Except.map, h]
        | ok more =>
          cases (gatherAll stop f bs).result <;> cases stop <;> cases found <;> cases more <;>
            simp_all [bind, Except.bind, Except.map]

theorem gatherAll_map {β : Type} {f : β → Logged ε (List Finding)} {g : α → β} {as : List α} :
    gatherAll stop f (as.map g) = gatherAll stop (fun a => f (g a)) as := by
  induction as with
  | nil => rfl
  | cons a as ih => rw [List.map_cons, gatherAll, gatherAll, ih]

/-- A walk whose items are walks is one walk. -/
theorem result_gatherAll_flatMap {β : Type} {f : β → Logged ε (List Finding)} {g : α → List β}
    {as : List α} : (gatherAll stop (fun a => gatherAll stop f (g a)) as).result =
      (gatherAll stop f (as.flatMap g)).result := by
  induction as with
  | nil => rfl
  | cons a as ih =>
    rw [List.flatMap_cons, result_gatherAll_append, gatherAll, result_gather, result_gather, ih]

end

section

variable {s : Subject} {f : Fault}

theorem result_lift_eq_fault_iff {α : Type} {x : Evaluating α} :
    (lift x).result = .error (.fault f) ↔ x.result = .error f := by
  rw [result_lift]
  cases x.result <;> simp [Except.mapError]

theorem result_readPatterns_ne_fault {names : List String} :
    (readPatterns s names).result ≠ .error (.fault f) := by
  induction names with
  | nil => exact nofun
  | cons name names ih =>
    unfold readPatterns
    split
    case h_1 p _ =>
      rw [Logged.result_bind]
      cases h : (readPatterns s names).result with
      | ok ps => exact nofun
      | error e => exact fun same => ih (h.trans same)
    case h_2 r _ => cases r <;> exact nofun

/-- A walk over the runs of nodes, each in its own words. -/
theorem result_lift_gatherAll_eq_fault_iff {α : Type} {run : α → Evaluating (List Finding)}
    {visit : α → Visit} {as : List α}
    (words : ∀ a, ∃ g : List Finding → List Finding,
      (run a).result = (visit a).outcome.map g ∧ ∀ found, g found = [] ↔ found = []) :
    (lift (gatherAll s.frame.stopAtFirst run as)).result = .error (.fault f) ↔
      ∃ v ∈ Visit.joined s.frame.stopAtFirst (as.map visit), v.outcome = .error f := by
  rw [result_lift_eq_fault_iff]
  exact result_gatherAll_eq_error_iff visit Visit.outcome words

theorem result_holdsSome_eq_error_iff {ns : List Node} :
    (holdsSome s ns).result = .error f ↔
      ∃ v ∈ reached (fun found => !found.isEmpty) Visit.outcome (ns.map (⟨s.stopping, ·⟩)),
        v.outcome = .error f := by
  refine eq_error_iff_exists_reached (fun ns => (holdsSome s ns).result) nofun ?_
  intro n ns e
  rw [holdsSome, Logged.result_bind, Visit.outcome, Visit.run]
  cases (evaluate s.stopping n).result with
  | error d => simp [bind, Except.bind]
  | ok found => cases found <;> simp [bind, Except.bind]

theorem result_countHolding_eq_error_iff {ns : List Node} :
    (countHolding s ns).result = .error f ↔
      ∃ v ∈ reached (fun _ => true) Visit.outcome (ns.map (⟨s.stopping, ·⟩)),
        v.outcome = .error f := by
  refine eq_error_iff_exists_reached (fun ns => (countHolding s ns).result) nofun ?_
  intro n ns e
  rw [countHolding, Logged.result_bind, Visit.outcome, Visit.run]
  cases (evaluate s.stopping n).result with
  | error d => simp [bind, Except.bind]
  | ok found =>
    change (countHolding s ns >>= fun rest => _).result = _ ↔ _
    rw [Logged.result_bind]
    cases (countHolding s ns).result <;> simp [bind, Except.bind]

theorem result_runDependency_eq_fault_iff {ms : List (String × Value)} {name : String} {v : Value}
    {d : Dependency} : (runDependency s ms name v d).result = .error (.fault f) ↔
      ∃ n ∈ d.subnodes, (evaluate (s.into (.member name) v).stopping n).result = .error f := by
  cases d with
  | node n =>
    rw [runDependency, Logged.result_map, map_eq_error_iff, result_lift_eq_fault_iff]
    simp [Dependency.subnodes]
  | names => simp [runDependency, Dependency.subnodes]
  | unusable => simp [runDependency, Dependency.subnodes]

theorem result_runDependencies_eq_fault_iff {ms : List (String × Value)}
    {ds : List (String × Dependency)} :
    (runDependencies s ms ds).result = .error (.fault f) ↔
      ∃ t ∈ reached (joins s.frame.stopAtFirst)
        (fun t => (runDependency s ms t.1 t.2.2 t.2.1).result) (present ms ds),
        ∃ n ∈ t.2.1.subnodes,
          (evaluate (s.into (.member t.1) t.2.2).stopping n).result = .error f := by
  rw [runDependencies_eq, result_gatherAll_eq_error_iff_self]
  simp only [result_runDependency_eq_fault_iff]

theorem mem_subnodes_of_visit {k : Keyword} {p : Param} {v : Visit} (h : v ∈ s.visits k p) :
    v.node ∈ p.subnodes := by
  have listed : ∀ {α β : Type} {goesOn : β → Bool} {out : Visit → Except Fault β}
      {visit : α → Visit} {as : List α}, v ∈ reached goesOn out (as.map visit) →
      ∃ a ∈ as, visit a = v := fun h => List.mem_map.mp (mem_of_mem_reached h)
  unfold Subject.visits at h
  split at h
  case h_1 ns =>
    split at h
    · obtain ⟨t, ht, rfl⟩ := listed h
      exact List.mem_map_of_mem (mem_present.mp ht).1
    · cases h
  case h_2 ns =>
    split at h
    · obtain ⟨m, hm, hv⟩ := List.mem_flatMap.mp (mem_of_mem_reached h)
      obtain ⟨n, hn, rfl⟩ := List.mem_map.mp hv
      obtain ⟨p, key, ht, -⟩ := mem_matching.mp hn
      exact List.mem_map_of_mem (List.of_mem_zip ht).2
    · cases h
  case h_3 n | h_4 n =>
    split at h
    · obtain ⟨a, -, rfl⟩ := listed h
      exact .head _
    · cases h
  case h_5 ns =>
    split at h
    · obtain ⟨t, ht, rfl⟩ := listed h
      exact (List.of_mem_zip (List.fst_mem_of_mem_zipIdx ht)).2
    · cases h
  case h_6 ds =>
    split at h
    · obtain ⟨t, ht, hv⟩ := List.mem_flatMap.mp h
      obtain ⟨n, hn, rfl⟩ := List.mem_map.mp hv
      exact List.mem_flatMap.mpr ⟨_, (mem_present.mp (mem_of_mem_reached ht)).1, hn⟩
    · cases h
  case h_7 ns =>
    obtain ⟨t, ht, rfl⟩ := listed h
    exact List.fst_mem_of_mem_zipIdx ht
  case h_8 ns | h_9 ns =>
    obtain ⟨n, hn, rfl⟩ := listed h
    exact hn
  case h_10 n | h_11 n =>
    split at h
    · obtain rfl := List.mem_singleton.mp h
      exact .head _
    · cases h
  case h_12 => cases h

/-- A rule has every fault that a visit of its ends in, and no other. -/
abbrev Transparent (s : Subject) (k : Keyword) (p : Param) : Prop :=
  ∀ f, (runRule s k p).result = .error (.fault f) ↔ ∃ v ∈ s.visits k p, v.outcome = .error f

theorem result_runEntries_eq_error_iff {es : List Entry} :
    (runEntries s es).result = .error f ↔
      ∃ e ∈ reached (joins s.frame.stopAtFirst) (fun e => (runEntry s e).result) es,
        (runEntry s e).result = .error f := by
  have walk : (runEntries s es).result = .error f ↔
      ∃ e ∈ reached (joins s.frame.stopAtFirst) (fun e => (runEntry s e).result) (es.map id),
        (runEntry s e).result = .error f := by
    refine eq_error_iff_exists_reached (fun es => (runEntries s es).result) nofun ?_
    intro e es d
    rw [result_runEntries_cons, join_eq_error_iff]
    rfl
  rwa [List.map_id] at walk

theorem transparent_properties {ns : List (String × Node)} :
    Transparent s .properties (.named ns) := by
  intro f
  rw [runRule, Subject.visits]
  cases s.value with
  | object a ms =>
    dsimp only
    rw [runProperties_eq]
    exact result_lift_gatherAll_eq_fault_iff fun t => plain_words _
  | _ => simp

theorem transparent_patternProperties {ns : List (String × Node)} :
    Transparent s .patternProperties (.named ns) := by
  intro f
  rw [runRule, Subject.visits]
  cases s.value with
  | object a ms =>
    dsimp only
    rw [Logged.result_bind]
    cases read : (readPatterns s (ns.map (·.1))).result with
    | error e =>
      have other : e ≠ .fault f := fun same => result_readPatterns_ne_fault (same ▸ read)
      simpa [bind, Except.bind] using other
    | ok ps =>
      -- the schemas that match a member, and that for every member, are one list of visits
      have flat : ∀ m : String × Value, runMatching (s.into (.member m.1) m.2) m.1 ps ns =
          gatherAll s.frame.stopAtFirst Visit.run
            ((matching m.1 ps ns).map fun n => ⟨s.into (.member m.1) m.2, n⟩) := by
        intro m
        rw [runMatching_eq, gatherAll_map]
        rfl
      change (lift (gatherAll s.frame.stopAtFirst _ ms)).result = _ ↔ _
      simp only [flat]
      rw [result_lift_eq_fault_iff, result_gatherAll_flatMap, ← result_lift_eq_fault_iff,
        result_lift_gatherAll_eq_fault_iff fun v : Visit => plain_words v.outcome, List.map_id']
  | _ => simp

theorem transparent_additional {n : Node} : Transparent s .additionalProperties (.node n) := by
  intro f
  rw [runRule, Subject.visits]
  cases s.value with
  | object a ms =>
    exact result_lift_gatherAll_eq_fault_iff fun m =>
      ⟨firstAs (additionalFinding s m), rfl, fun _ => firstAs_eq_nil_iff⟩
  | _ => simp

theorem transparent_closed {v : Value} : Transparent s .additionalProperties (.plain v) := by
  intro f
  refine iff_of_false ?_ (by simp [Subject.visits])
  cases v with
  | bool b =>
    cases b with
    | false =>
      rw [runRule]
      cases s.value with
      | object a ms => cases s.frame.allowUnknown <;> simp
      | _ => simp
    | true => simp [runRule]
  | _ => simp [runRule]

theorem transparent_items {n : Node} : Transparent s .items (.node n) := by
  intro f
  rw [runRule, Subject.visits]
  cases s.value with
  | array a xs => exact result_lift_gatherAll_eq_fault_iff fun x => plain_words _
  | _ => simp

theorem transparent_elements {ns : List Node} : Transparent s .items (.nodes ns) := by
  intro f
  rw [runRule, Subject.visits]
  cases s.value with
  | array a xs =>
    dsimp only
    rw [runItems_eq]
    exact result_lift_gatherAll_eq_fault_iff fun t => plain_words _
  | _ => simp

theorem transparent_dependencies {ds : List (String × Dependency)} :
    Transparent s .dependencies (.dependencies ds) := by
  intro f
  rw [runRule, Subject.visits]
  cases s.value with
  | object a ms =>
    dsimp only
    rw [result_runDependencies_eq_fault_iff]
    simp only [List.mem_flatMap, List.mem_map]
    constructor
    · rintro ⟨t, ht, n, hn, failed⟩
      exact ⟨_, ⟨t, ht, n, hn, rfl⟩, failed⟩
    · rintro ⟨v, ⟨t, ht, n, hn, rfl⟩, failed⟩
      exact ⟨t, ht, n, hn, failed⟩
  | _ => simp

theorem transparent_branches {c : Combinator} {n : Node} {ns : List Node} :
    Transparent s (.combine c) (.nodes (n :: ns)) := by
  intro f
  cases c with
  | allOf =>
    rw [runRule, runConjunction_eq]
    exact result_lift_gatherAll_eq_fault_iff fun t =>
      ⟨firstAs (conjunctFinding t.2), rfl, fun _ => firstAs_eq_nil_iff⟩
  | anyOf =>
    rw [runRule, Logged.result_map, map_eq_error_iff, result_lift_eq_fault_iff]
    exact result_holdsSome_eq_error_iff
  | oneOf =>
    rw [runRule, Logged.result_map, map_eq_error_iff, result_lift_eq_fault_iff]
    exact result_countHolding_eq_error_iff

theorem transparent_clause {c : Clause} {n : Node} : Transparent s (.clause c) (.node n) := by
  intro f
  rw [runRule, Subject.visits]
  split
  · rw [Logged.result_map, map_eq_error_iff, result_lift_eq_fault_iff]
    simp [Visit.outcome, Visit.run]
  · simp

theorem transparent_pattern {v : Value} : Transparent s .pattern (.plain v) := by
  intro f
  rw [runRule]
  refine iff_of_false ?_ (by simp [Subject.visits])
  unfold checkPattern
  split
  case h_1 text pattern _ =>
    cases Pattern.compile pattern with
    | ok p => simp
    | error r => cases r <;> simp
  all_goals simp

theorem transparent_format {v : Value} : Transparent s .format (.plain v) := by
  intro f
  rw [runRule]
  refine iff_of_false ?_ (by simp [Subject.visits])
  unfold checkFormat
  split
  case h_1 name text _ =>
    cases Listing.get? name s.frame.formats with
    | none =>
      dsimp only
      cases s.frame.mode with
      | warn =>
        rw [Logged.result_bind]
        intro failed
        cases failed
      | strict =>
        intro failed
        cases failed
      | loose =>
        intro failed
        cases failed
    | some checker =>
      dsimp only
      rcases checker.check text with b | (_ | _) <;> simp
  all_goals simp

/-- A negation alone keeps what its schema fails of to itself. -/
theorem transparent_runRule {k : Keyword} {p : Param} (plain : k ≠ .negation) :
    Transparent s k p := by
  cases k with
  | properties =>
    cases p with
    | named ns => exact transparent_properties
    | _ => simp [Transparent, runRule, Subject.visits]
  | patternProperties =>
    cases p with
    | named ns => exact transparent_patternProperties
    | _ => simp [Transparent, runRule, Subject.visits]
  | additionalProperties =>
    cases p with
    | node n => exact transparent_additional
    | plain v => exact transparent_closed
    | _ => simp [Transparent, runRule, Subject.visits]
  | items =>
    cases p with
    | node n => exact transparent_items
    | nodes ns => exact transparent_elements
    | _ => simp [Transparent, runRule, Subject.visits]
  | dependencies =>
    cases p with
    | dependencies ds => exact transparent_dependencies
    | _ => simp [Transparent, runRule, Subject.visits]
  | combine c =>
    cases p with
    | nodes ns =>
      cases ns with
      | nil => cases c <;> simp [Transparent, runRule, Subject.visits, Visit.joined, reached]
      | cons n ns => exact transparent_branches
    | _ => cases c <;> simp [Transparent, runRule, Subject.visits]
  | negation => exact absurd rfl plain
  | clause c =>
    cases p with
    | node n => exact transparent_clause
    | _ => simp [Transparent, runRule, Subject.visits]
  | pattern =>
    cases p with
    | plain v => exact transparent_pattern
    | _ => simp [Transparent, runRule, Subject.visits]
  | format =>
    cases p with
    | plain v => exact transparent_format
    | _ => simp [Transparent, runRule, Subject.visits]
  -- the others look at the value alone
  | _ => cases p <;> simp [Transparent, runRule, Subject.visits]

end

end Conform.Rules
