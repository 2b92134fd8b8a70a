import Conform.Proofs.Rules.Walk
import Conform.Proofs.Schema.Vocabulary

/-! What a rule may blame. Outcomes that are findings and blame a schema only for what compilation
leaves open, and the rules that look at a value alone, which end in such. -/
namespace Conform

/-- What a reason comes down to once all wrapping is taken off. -/
def Reason.core : Reason → Reason
  | .additional _ _ inner | .dependency _ _ inner | .conjunct _ _ inner | .clause _ _ inner =>
    inner.core
  | r => r

/-- The complaints of rules about their own parameters. -/
def Reason.blamesSchema : Reason → Bool
  | .badBound _ | .badDivisor | .badLimit _ | .badPattern | .unusablePattern _ | .badUniqueness
  | .badFormat | .unusableNamePattern _ | .badDependency _ | .emptyCombinator _ | .idleNegation =>
    true
  | _ => false

/-- What compilation leaves to a rule to complain of. -/
inductive Param.Lapse : Keyword → Param → Reason → Prop
  | divisor {d : Number} (small : d.lessOrEqual Rules.zero) :
    Lapse .multipleOf (.plain (.number d)) .badDivisor
  | format {v : Value} (nameless : v.string? = none) : Lapse .format (.plain v) .badFormat

/-- The same somewhere in a tree. -/
inductive Node.Lapse : Node → Reason → Prop
  | own {n : Node} {k : Keyword} {p : Param} {r : Reason}
    (mem : .mk k.name p (some (.of k)) ∈ n.entries) (lapse : p.Lapse k r) : n.Lapse r
  | inside {n m : Node} {r : Reason} (sub : m ∈ n.subnodes) (lapse : m.Lapse r) : n.Lapse r

/-- What an entry's parameter may rightly be blamed for. -/
def Param.Blame (k : Keyword) (p : Param) (r : Reason) : Prop :=
  p.Lapse k r ∨ ∃ m ∈ p.subnodes, m.Lapse r

/-- A finding that blames the schema only for what compilation leaves open. -/
def Finding.Fair (blame : Reason → Prop) (f : Finding) : Prop :=
  f.reason.core.blamesSchema = true → blame f.reason.core

/-- Checkers that always answer. -/
def Frame.Answers (frame : Frame) : Prop :=
  ∀ name checker, Listing.get? name frame.formats = some checker →
    ∀ text, ∃ b, checker.check text = .ok b

theorem Frame.answers_of_builtins {frame : Frame} (h : frame.formats = Checker.builtins) :
    frame.Answers := by
  intro name checker found text
  have all : ∀ e ∈ Checker.builtins, ∃ accepts, e.2 = Checker.builtin accepts := by
    simp [Checker.builtins]
  obtain ⟨accepts, same⟩ := all _ (Listing.mem_of_get? (h ▸ found))
  exact ⟨accepts text, by rw [show checker = _ from same]; rfl⟩

namespace Rules

/-- An outcome without failure, all of whose findings have a property. -/
def Ends {ε : Type} (P : Finding → Prop) (x : Except ε (List Finding)) : Prop :=
  ∃ found, x = .ok found ∧ ∀ f ∈ found, P f

namespace Ends

variable {α ε δ : Type} {P Q : Finding → Prop}

theorem nil : Ends P (.ok [] : Except ε (List Finding)) := ⟨[], rfl, nofun⟩

theorem of_forall {found : List Finding} (h : ∀ f ∈ found, P f) :
    Ends P (.ok found : Except ε (List Finding)) := ⟨found, rfl, h⟩

theorem imp {x : Except ε (List Finding)} (h : Ends P x) (hPQ : ∀ f, P f → Q f) : Ends Q x := by
  obtain ⟨found, hx, hf⟩ := h
  exact ⟨found, hx, fun f h => hPQ f (hf f h)⟩

theorem map {x : Except ε (List Finding)} {g : List Finding → List Finding} (h : Ends P x)
    (hg : ∀ found, (∀ f ∈ found, P f) → ∀ f ∈ g found, Q f) : Ends Q (x.map g) := by
  obtain ⟨found, rfl, hf⟩ := h
  exact ⟨g found, rfl, hg found hf⟩

theorem mapError {x : Except ε (List Finding)} {g : ε → δ} (h : Ends P x) :
    Ends P (x.mapError g) := by
  obtain ⟨found, rfl, hf⟩ := h
  exact ⟨found, rfl, hf⟩

/-- The step of every walk: it may end with the first findings or go on to more. -/
theorem bind {x r : Except ε (List Finding)} {stop : Bool} {take : List Finding → List Finding}
    (h : Ends P x) (hr : Ends P r) (sub : ∀ found, ∀ f ∈ take found, f ∈ found) :
    Ends P (x >>= fun found =>
      if stop && !found.isEmpty then .ok (take found) else r.map (found ++ ·)) := by
  obtain ⟨found, rfl, hf⟩ := h
  obtain ⟨more, rfl, hm⟩ := hr
  change Ends P (if stop && !found.isEmpty then .ok (take found) else .ok (found ++ more))
  split
  · exact of_forall fun f h => hf f (sub found f h)
  · exact of_forall fun f h => (List.mem_append.mp h).elim (hf f) (hm f)

theorem gatherAll {stop : Bool} {f : α → Logged ε (List Finding)} {as : List α}
    (h : ∀ a ∈ as, Ends P (f a).result) : Ends P (gatherAll stop f as).result := by
  induction as with
  | nil => exact nil
  | cons a as ih =>
    rw [List.forall_mem_cons] at h
    rw [Rules.gatherAll, result_gather]
    exact h.1.bind (ih h.2) fun (_ : List Finding) _ h => h

theorem lift {x : Evaluating (List Finding)} (h : Ends P x.result) : Ends P (lift x).result :=
  mapError h

theorem settle {keyword : String} {path : Path} {x : Checking (List Finding)}
    (h : Ends P x.result) : Ends P (settle keyword path x).result := by
  obtain ⟨found, hx, hf⟩ := h
  rw [result_settle, hx]
  exact of_forall hf

end Ends

section Leaves

variable {s : Subject} {blame : Reason → Prop}

theorem fair_finding {tag : String} {reason : Reason} {param : Option String}
    (innocent : reason.core.blamesSchema = false) :
    ∀ f ∈ s.finding tag reason param, f.Fair blame := by
  intro f hf guilty
  obtain rfl := List.mem_singleton.mp hf
  rw [innocent] at guilty
  cases guilty

/-- A check that gives one finding or none. -/
theorem fair_guard {c : Prop} [Decidable c] {tag : String} {reason : Reason}
    {param : Option String} (innocent : reason.core.blamesSchema = false) :
    ∀ f ∈ if c then [] else s.finding tag reason param, f.Fair blame := by
  split
  · exact List.forall_mem_nil _
  · exact fair_finding innocent

theorem fair_checkType {v : Value} : ∀ f ∈ checkType s v, f.Fair blame := by
  unfold checkType
  refine fair_guard ?_
  split <;> rfl

theorem fair_checkBound {b : Bound} {n : Number} :
    ∀ f ∈ checkBound b s (.number n), f.Fair blame := by
  unfold checkBound
  split
  case h_1 => exact fair_finding rfl
  case h_2 absent _ => cases absent
  case h_3 => exact fair_guard rfl

theorem fair_checkMultipleOf {d : Number} (small : d.lessOrEqual zero → blame .badDivisor) :
    ∀ f ∈ checkMultipleOf s (.number d), f.Fair blame := by
  unfold checkMultipleOf
  dsimp only [Value.number?]
  split
  case isTrue h =>
    intro f hf _
    obtain rfl := List.mem_singleton.mp hf
    exact small h
  case isFalse =>
    split
    · exact fair_finding rfl
    · split
      · exact List.forall_mem_nil _
      · exact fair_finding rfl

theorem fair_checkLimit {l : Limit} {i : Int} (natural : 0 ≤ i) :
    ∀ f ∈ checkLimit l s (.ofInt i), f.Fair blame := by
  have whole : (Value.ofInt i).toInt? = some i := rfl
  unfold checkLimit
  rw [whole]
  split
  case h_1 reason h =>
    refine fair_finding ?_
    unfold size at h
    split at h <;> cases h <;> rfl
  case h_2 =>
    simp only [Int.not_lt.mpr natural, if_false]
    exact fair_guard rfl

theorem ends_checkPattern {pattern : String} {p : Pattern}
    (reads : Pattern.compile pattern = .ok p) :
    Ends (Finding.Fair blame) (checkPattern s (.string pattern)).result := by
  unfold checkPattern
  split
  case h_1 text name hv hp =>
    cases hp
    rw [reads]
    exact Ends.of_forall (fair_guard rfl)
  case h_2 h => exact absurd rfl (h _)
  case h_3 => exact Ends.of_forall (fair_finding rfl)

theorem fair_checkUniqueItems {b : Bool} :
    ∀ f ∈ checkUniqueItems s (.bool b), f.Fair blame := by
  cases b with
  | false => exact fun f hf => by cases hf
  | true =>
    unfold checkUniqueItems
    dsimp only
    split
    case h_1 h => cases h
    case h_2 => exact fair_guard rfl
    case h_3 => exact fair_finding rfl
    case h_4 other _ => exact (other rfl).elim

theorem fair_checkEnum {v : Value} : ∀ f ∈ checkEnum s v, f.Fair blame := by
  unfold checkEnum
  exact fair_guard rfl

theorem fair_checkRequired {v : Value} : ∀ f ∈ checkRequired s v, f.Fair blame := by
  unfold checkRequired
  split
  · intro f hf guilty
    obtain ⟨name, -, rfl⟩ := List.mem_map.mp hf
    cases guilty
  · exact fair_finding rfl

theorem ends_checkFormat {v : Value} (answers : s.frame.Answers)
    (nameless : v.string? = none → blame .badFormat) :
    Ends (Finding.Fair blame) (checkFormat s v).result := by
  unfold checkFormat
  dsimp only
  split
  case h_1 name text _ =>
    split
    case h_1 checker found =>
      obtain ⟨b, hb⟩ := answers name checker found text
      rw [hb]
      cases b with
      | true => exact Ends.nil
      | false => exact Ends.of_forall (fair_finding rfl)
    case h_2 =>
      split
      · exact Ends.nil
      · exact Ends.of_forall (fair_finding rfl)
      · exact Ends.of_forall (fair_finding rfl)
  case h_2 => exact Ends.of_forall (fair_finding rfl)
  case h_3 v _ _ unnamed _ =>
    refine Ends.of_forall fun f hf _ => ?_
    obtain rfl := List.mem_singleton.mp hf
    refine nameless ?_
    cases v with
    | string name => exact absurd rfl (unnamed name)
    | _ => rfl

theorem ends_closed {b : Bool} :
    Ends (Finding.Fair blame) (runRule s .additionalProperties (.plain (.bool b))).result := by
  cases b with
  | true =>
    unfold runRule
    exact Ends.nil
  | false =>
    rw [runRule]
    split
    case h_1 ms _ =>
      have fair : ∀ f ∈ (extras s.frame ms).map (unknownField s), f.Fair blame := by
        intro f hf guilty
        obtain ⟨m, -, rfl⟩ := List.mem_map.mp hf
        cases guilty
      split
      · exact Ends.nil
      · refine Ends.of_forall fun f hf => fair f ?_
        split at hf
        · exact List.mem_of_mem_take hf
        · exact hf
    case h_2 => exact Ends.nil

/-- Only the first finding counts, and what is wrapped around it changes no blame. -/
theorem ends_firstAs {ε : Type} {x : Except ε (List Finding)} {f : Finding → Finding}
    (h : Ends (Finding.Fair blame) x) (wraps : ∀ g, (f g).reason.core = g.reason.core) :
    Ends (Finding.Fair blame) (x.map (firstAs f)) := by
  refine h.map fun found fair g hg => ?_
  cases found with
  | nil => cases hg
  | cons a _ =>
    obtain rfl := List.mem_singleton.mp hg
    unfold Finding.Fair
    rw [wraps]
    exact fair a (.head _)

theorem fair_countVerdict {c : Combinator} {holding : Nat} :
    ∀ f ∈ countVerdict c s holding, f.Fair blame := by
  unfold countVerdict
  split
  · exact fair_finding rfl
  · exact fair_finding rfl
  · exact List.forall_mem_nil _

end Leaves

end Rules

end Conform
