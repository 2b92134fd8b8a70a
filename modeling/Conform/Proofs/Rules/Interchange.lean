import Conform.Proofs.Rules.Meaning
import Conform.Proofs.Rules.Safety
import Conform.Proofs.Value.Interchange

/-! Runs on values that stand for one another. All rules but one look at what a value is, never at
how it is written or in which order its members come, so that equal values pass and fail together.
Divisibility is the exception: it is exact for whole numbers and not for doubles. -/
namespace Conform

namespace Rules

open Value

/-- Subjects of equal values under the same conditions, wherever they stand. -/
inductive Similar : Subject → Subject → Prop
  | intro {frame : Frame} {x y : Value} {p q : Path} (value : Interchangeable x y) :
    Similar ⟨frame, x, p⟩ ⟨frame, y, q⟩

namespace Similar

variable {s t : Subject}

theorem value (h : Similar s t) : Interchangeable s.value t.value := by
  cases h with
  | intro value => exact value

theorem frame (h : Similar s t) : s.frame = t.frame := by
  cases h
  rfl

theorem formats (h : Similar s t) : t.frame.formats = s.frame.formats := by
  rw [h.frame]

theorem stopping (h : Similar s t) : Similar s.stopping t.stopping := by
  cases h with
  | intro value => exact .intro value

theorem into (h : Similar s t) {v w : Value} (inner : Interchangeable v w) (i j : Step) :
    Similar (s.into i v) (t.into j w) := by
  cases h
  exact .intro inner

theorem enter (h : Similar s t) (entries : List Entry) (patterns : List Pattern) :
    Similar (s.enter entries patterns) (t.enter entries patterns) := by
  cases h with
  | intro value => exact .intro value

theorem under (h : Similar s t) (condition : Option Bool) :
    Similar (s.under condition) (t.under condition) := by
  cases h with
  | intro value => exact .intro value

theorem branchAt (h : Similar s t) (i : Nat) : Similar (branchAt s i) (branchAt t i) := by
  cases h with
  | intro value => exact .intro value

end Similar

/-- A node that runs to an end, and that equal values pass and fail together. -/
structure Impartial (formats : Listing Checker) (n : Node) : Prop where
  safe : Safe formats n
  iff : ∀ s t : Subject, s.frame.formats = formats → Similar s t →
    ((evaluate s n).result = .ok [] ↔ (evaluate t n).result = .ok [])

namespace Similar

variable {s t : Subject} {n : Node} {ns : List Node}

theorem isEmpty_eq (h : Similar s t) (node : Impartial s.frame.formats n) :
    ∃ found found', (evaluate s n).result = .ok found ∧ (evaluate t n).result = .ok found' ∧
      found.isEmpty = found'.isEmpty := by
  obtain ⟨found, hf⟩ := node.safe.runs (s := s) rfl
  obtain ⟨found', hf'⟩ := node.safe.runs (s := t) h.formats
  refine ⟨found, found', hf, hf', ?_⟩
  have iff := node.iff s t rfl h
  rw [hf, hf', Except.ok.injEq, Except.ok.injEq] at iff
  rw [Bool.eq_iff_iff, List.isEmpty_iff, List.isEmpty_iff, iff]

theorem passes_eq (h : Similar s t) (node : Impartial s.frame.formats n) :
    passes s n = passes t n := by
  obtain ⟨found, found', hf, hf', same⟩ := h.stopping.isEmpty_eq node
  rw [Rules.passes_eq s hf, Rules.passes_eq t hf', same]

end Similar

end Rules

end Conform
