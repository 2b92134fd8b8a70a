import Conform.Proofs.Rules.Meaning
import Conform.Proofs.Rules.Safety

/-! Rules and clauses. Above nodes that do what their raw schemas mean, every built-in rule finds
nothing exactly where its keyword holds. -/
namespace Conform.Schema

open Rules

/-- A run with the given setting, on a value that JSON can write, that lets no unknown field by. -/
structure Runs (g : Setting) (s : Subject) : Prop where
  mode : s.frame.mode = g.mode
  formats : s.frame.formats = g.formats
  closed : s.frame.allowUnknown = false
  json : s.value.Json

namespace Runs

variable {g : Setting} {s : Subject}

theorem stopping (h : Runs g s) : Runs g s.stopping := ⟨h.mode, h.formats, h.closed, h.json⟩

theorem into (h : Runs g s) (step : Step) {v : Value} (json : v.Json) : Runs g (s.into step v) :=
  ⟨h.mode, h.formats, h.closed, json⟩

theorem enter (h : Runs g s) (es : List Entry) (ps : List Pattern) : Runs g (s.enter es ps) :=
  ⟨h.mode, h.formats, h.closed, h.json⟩

theorem under (h : Runs g s) (condition : Option Bool) : Runs g (s.under condition) :=
  ⟨h.mode, h.formats, h.closed, h.json⟩

theorem branchAt (h : Runs g s) (i : Nat) : Runs g (Rules.branchAt s i) :=
  ⟨h.mode, h.formats, h.closed, h.json⟩

end Runs

/-- A node that does what a raw schema means: its runs end, and find nothing where it holds. -/
structure Means (g : Setting) (raw : Value) (n : Node) : Prop where
  safe : Safe g.formats n
  nil_iff : ∀ s, Runs g s → ((evaluate s n).result = .ok [] ↔ satisfies g raw s.value = true)

variable {g : Setting} {s : Subject}

theorem Means.passes_eq {raw : Value} {n : Node} (h : Means g raw n) (runs : Runs g s) :
    passes s n = satisfies g raw s.value := by
  obtain ⟨found, hf⟩ := h.safe.runs (s := s.stopping) runs.formats
  rw [Rules.passes_eq s hf, Bool.eq_iff_iff, List.isEmpty_iff]
  refine Iff.trans ?_ (h.nil_iff s.stopping runs.stopping)
  rw [hf, Except.ok.injEq]

theorem searches_eq {name : String} {p : Pattern} (reads : Pattern.compile name = .ok p)
    (text : String) : searches name text = p.search text := by
  rw [searches, reads]

theorem matching_eq {name : String} {ns : List (String × Node)} {ps : List Pattern}
    (reads : List.Forall₂ (fun pattern p => Pattern.compile pattern = .ok p) (ns.map (·.1)) ps) :
    matching name ps ns = (ns.filter fun n => searches n.1 name).map (·.2) := by
  induction ns generalizing ps with
  | nil => simp [matching]
  | cons n ns ih =>
    rw [List.map_cons, List.forall₂_cons_left_iff] at reads
    obtain ⟨p, ps, hp, hps, rfl⟩ := reads
    have rest := ih hps
    unfold matching at rest ⊢
    rw [List.zip_cons_cons, List.filter_cons, List.filter_cons, searches_eq hp]
    cases p.search name <;> simp [rest]

open Compile

end Conform.Schema
