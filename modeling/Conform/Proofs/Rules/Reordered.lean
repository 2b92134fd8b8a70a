import Conform.Proofs.Rules.Shuffle
import Conform.Proofs.Schema.Clauses
import Conform.Proofs.Schema.Vocabulary
import Conform.Proofs.Tree.Alike

/-! Nodes with their entries in another order. The rules that go through named schemas take these in
any order too, and no rule minds among which siblings it stands. -/
namespace Conform

/-- Entries of one keyword, equal or with their nodes rearranged where the rule takes any order. -/
inductive Entry.Reordered (R : Node → Node → Prop) : Entry → Entry → Prop
  | same (e : Entry) : Reordered R e e
  | properties {ns ms : List (String × Node)} (nodes : Rearranged (Named R) ns ms) :
    Reordered R (.mk Keyword.properties.name (.named ns) (some (.of .properties)))
      (.mk Keyword.properties.name (.named ms) (some (.of .properties)))
  | patternProperties {ns ms : List (String × Node)} (nodes : Rearranged (Named R) ns ms)
    (reads : ∀ m ∈ ns, ∃ p, Pattern.compile m.1 = .ok p) :
    Reordered R (.mk Keyword.patternProperties.name (.named ns) (some (.of .patternProperties)))
      (.mk Keyword.patternProperties.name (.named ms) (some (.of .patternProperties)))
  | items {n m : Node} (nodes : R n m) :
    Reordered R (.mk Keyword.items.name (.node n) (some (.of .items)))
      (.mk Keyword.items.name (.node m) (some (.of .items)))
  | elements {ns ms : List Node} (nodes : List.Forall₂ R ns ms) :
    Reordered R (.mk Keyword.items.name (.nodes ns) (some (.of .items)))
      (.mk Keyword.items.name (.nodes ms) (some (.of .items)))

namespace Rules

/-- Nodes that find the same in some order when nothing stops them. -/
def Shuffles (n m : Node) : Prop :=
  ∀ s : Subject, s.frame.stopAtFirst = false → Shuffle (evaluate s n).result (evaluate s m).result

/-- All names of a listing are patterns that can be read. -/
theorem exists_reads_names {α : Type} {ns : List (String × α)}
    (reads : ∀ m ∈ ns, ∃ p, Pattern.compile m.1 = .ok p) :
    ∃ ps, List.Forall₂ (fun name p => Pattern.compile name = .ok p) (ns.map (·.1)) ps := by
  refine exists_forall₂ fun name hname => ?_
  obtain ⟨m, hm, rfl⟩ := List.mem_map.mp hname
  exact reads m hm

theorem reads_of_rearranged {R : Node → Node → Prop} {ns ms : List (String × Node)}
    (h : Rearranged (Named R) ns ms) (reads : ∀ m ∈ ns, ∃ p, Pattern.compile m.1 = .ok p) :
    ∀ m ∈ ms, ∃ p, Pattern.compile m.1 = .ok p := by
  obtain ⟨_, related, perm⟩ := h.exists_perm
  intro m hm
  obtain ⟨n, hn, same⟩ := exists_left_of_forall₂ related (perm.mem_iff.mpr hm)
  obtain ⟨name, -⟩ := same
  have read := reads _ hn
  exact read

section

variable {s : Subject} (exhaustive : s.frame.stopAtFirst = false) {keyword : String}
include exhaustive

theorem shuffle_properties {ns ms : List (String × Node)}
    (h : Rearranged (Named Shuffles) ns ms) :
    Shuffle (settle keyword s.path (runRule s .properties (.named ns))).result
      (settle keyword s.path (runRule s .properties (.named ms))).result := by
  rw [runRule, runRule]
  cases hv : s.value
  case object a members =>
    simp only [runProperties_eq, exhaustive]
    refine Shuffle.settle_lift (Shuffle.gatherAll (h.filterMap ?_))
    rintro _ _ ⟨name, shuffles⟩
    cases Listing.get? name members with
    | none => exact .none
    | some v => exact .some (shuffles (s.into (.member name) v) exhaustive)
  all_goals exact .refl _

theorem shuffle_patternProperties {ns ms : List (String × Node)}
    (h : Rearranged (Named Shuffles) ns ms)
    (reads : ∀ m ∈ ns, ∃ p, Pattern.compile m.1 = .ok p) :
    Shuffle (settle keyword s.path (runRule s .patternProperties (.named ns))).result
      (settle keyword s.path (runRule s .patternProperties (.named ms))).result := by
  rw [runRule, runRule]
  cases hv : s.value
  case object a members =>
    obtain ⟨ps, hps⟩ := exists_reads_names reads
    obtain ⟨qs, hqs⟩ := exists_reads_names (reads_of_rearranged h reads)
    have ran : ∀ {names ps} (f : List Pattern → Checking (List Finding)),
        List.Forall₂ (fun name p => Pattern.compile name = .ok p) names ps →
        (settle keyword s.path (readPatterns s names >>= f)).result =
          (settle keyword s.path (f ps)).result := by
      intro names ps f reads
      rw [result_settle, result_settle, Logged.result_bind,
        (result_readPatterns_eq_ok_iff s).mpr reads]
      rfl
    simp only [ran _ hps, ran _ hqs, runMatching_eq, Schema.matching_eq hps, Schema.matching_eq hqs,
      exhaustive]
    refine Shuffle.settle_lift (Shuffle.gatherAll_forall₂ (List.forall₂_same.mpr fun m _ => ?_))
    have selected : Rearranged Shuffles
        ((ns.filter fun n => Schema.searches n.1 m.1).map (·.2))
        ((ms.filter fun n => Schema.searches n.1 m.1).map (·.2)) := by
      refine Rearranged.map (R := Named Shuffles) (h.filter ?_) ?_
      · rintro _ _ ⟨name, -⟩
        rfl
      · rintro _ _ ⟨-, shuffles⟩
        exact shuffles
    have inner : (s.into (.member m.1) m.2).frame.stopAtFirst = false := exhaustive
    rw [inner]
    exact Shuffle.gatherAll (selected.imp_of_mem fun _ _ _ _ shuffles => shuffles _ inner)
  all_goals exact .refl _

theorem shuffle_items {n m : Node} (h : Shuffles n m) :
    Shuffle (settle keyword s.path (runRule s .items (.node n))).result
      (settle keyword s.path (runRule s .items (.node m))).result := by
  rw [runRule, runRule]
  cases hv : s.value
  case array a xs =>
    simp only [exhaustive]
    refine Shuffle.settle_lift (Shuffle.gatherAll_forall₂ (List.forall₂_same.mpr fun x _ => ?_))
    exact h (s.into (.element x.2) x.1) exhaustive
  all_goals exact .refl _

theorem shuffle_elements {ns ms : List Node} (h : List.Forall₂ Shuffles ns ms) :
    Shuffle (settle keyword s.path (runRule s .items (.nodes ns))).result
      (settle keyword s.path (runRule s .items (.nodes ms))).result := by
  rw [runRule, runRule]
  cases hv : s.value
  case array a xs =>
    simp only [runItems_eq, exhaustive]
    refine Shuffle.settle_lift (Shuffle.gatherAll_forall₂ ?_)
    refine (forall₂_zipIdx_both (forall₂_zip h xs) 0).imp ?_
    rintro ⟨⟨x, n⟩, i⟩ ⟨⟨_, m⟩, _⟩ ⟨⟨rfl, shuffles⟩, rfl⟩
    exact shuffles (s.into (.element i) x) exhaustive
  all_goals exact .refl _

end

/-- A rule among rearranged siblings, with its own nodes rearranged. -/
theorem shuffle_runEntry {s : Subject} (exhaustive : s.frame.stopAtFirst = false)
    {declared : List String} {patterns : List Pattern}
    (same : ∀ ms, extras (s.among declared patterns).frame ms = extras s.frame ms) {e f : Entry}
    (h : e.Reordered Shuffles f) (builtin : e.rule = none ∨ ∃ k, e.rule = some (.of k)) :
    Shuffle (runEntry (s.among declared patterns) e).result (runEntry s f).result := by
  have alone : runEntry (s.among declared patterns) e = runEntry s e := by
    obtain ⟨keyword, p, rule⟩ := e
    rcases builtin with unruled | ⟨k, ruled⟩
    · cases unruled
      rw [runEntry, runEntry]
    · cases ruled
      rw [runEntry, runEntry]
      exact congrArg (settle keyword s.path) (runRule_among k p same)
  rw [alone]
  cases h with
  | same => exact .refl _
  | properties nodes => exact shuffle_properties exhaustive nodes
  | patternProperties nodes reads => exact shuffle_patternProperties exhaustive nodes reads
  | items nodes => exact shuffle_items exhaustive nodes
  | elements nodes => exact shuffle_elements exhaustive nodes

/-- A node with rearranged entries finds the same in some order. -/
theorem shuffles_of_rearranged {n m : Node}
    (entries : Rearranged (Entry.Reordered Shuffles) n.entries m.entries)
    (builtin : ∀ e ∈ n.entries, e.rule = none ∨ ∃ k, e.rule = some (.of k))
    (declared : n.declared.Perm m.declared) (patterns : n.patterns.Perm m.patterns)
    (condition : conditionNode? n.entries = conditionNode? m.entries) : Shuffles n m := by
  intro s exhaustive
  have enter : s.enter n.entries n.patterns =
      (s.enter m.entries m.patterns).among n.declared n.patterns := rfl
  have same : conditionOf ((s.enter m.entries m.patterns).among n.declared n.patterns) n.entries =
      conditionOf (s.enter m.entries m.patterns) m.entries := by
    rw [conditionOf_eq, conditionOf_eq, condition, evaluate_stopping_among]
  rw [evaluate_eq, evaluate_eq, enter, same, Logged.result_bind, Logged.result_bind]
  cases (conditionOf (s.enter m.entries m.patterns) m.entries).result with
  | error e => exact .failed e e
  | ok c =>
    let inner := (s.enter m.entries m.patterns).under c
    show Shuffle (runEntries (inner.among n.declared n.patterns) n.entries).result
      (runEntries inner m.entries).result
    rw [result_runEntries_exhaustive (s := inner.among _ _) exhaustive,
      result_runEntries_exhaustive (s := inner) exhaustive]
    refine Shuffle.gatherAll (entries.imp_of_mem fun e he f _ reordered => ?_)
    exact shuffle_runEntry (s := inner) exhaustive (extras_among declared patterns) reordered
      (builtin e he)

end Rules

end Conform
