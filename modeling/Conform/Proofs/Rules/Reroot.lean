import Conform.Proofs.Rules.Relocate

/-! Running below another root: another root is another path that the same steps are taken from. -/
namespace Conform

/-- The same steps from another root. -/
def Path.reroot (root : String) (p : Path) : Path := { p with root }

def Finding.reroot (root : String) (f : Finding) : Finding := { f with path := f.path.reroot root }

def Verdict.reroot (root : String) : Verdict → Verdict
  | .violated found => .violated (found.map (Finding.reroot root))
  | v => v

/-- A rule that only passes the path on to its findings. -/
def CustomRule.Parametric (r : CustomRule) : Prop :=
  ∀ (call : Call) (root : String),
    r.apply { call with path := call.path.reroot root } = (r.apply call).reroot root

def Handler.Parametric : Handler → Prop
  | .builtin _ => True
  | .custom r => r.Parametric

def Rule.Parametric (r : Rule) : Prop := r.handler.Parametric

namespace Rules

def Subject.reroot (root : String) (s : Subject) : Subject :=
  { s with path := s.path.reroot root }

/-- A node whose runs below two roots mirror each other. -/
def Reroots (n : Node) : Prop :=
  ∀ (s : Subject) (root : String),
    NodeMirrors (Finding.reroot root) (evaluate s n).result (evaluate (s.reroot root) n).result

theorem follows_of_parametric {h : Handler} (parametric : h.Parametric) (root : String) :
    h.Follows (.ofString root) := by
  cases h with
  | builtin => trivial
  | custom r => exact fun call => parametric call root

/-- A node none of whose rules looks at the path runs alike below every root. -/
theorem reroots_of_parametric {n : Node}
    (parametric : n.Every fun m => ∀ e ∈ m.entries, ∀ r, e.rule = some r → r.Parametric) :
    Reroots n := by
  intro s root
  have follows : n.Every fun m =>
      ∀ e ∈ m.entries, ∀ r, e.rule = some r → r.handler.Follows (.ofString root) :=
    parametric.imp fun _ own e he r hr => follows_of_parametric (own e he r hr) root
  exact relocates_of_follows follows s

/-- A run below its own root is itself, so that root is the one of all its findings. -/
theorem root_of_reroots {frame : Frame} {value : Value} {n : Node} {found : List Finding}
    {name : String} (reroots : Reroots n)
    (run : (evaluate ⟨frame, value, .ofString name⟩ n).result = .ok found) :
    ∀ f ∈ found, f.path.root = name := by
  have stayed := reroots ⟨frame, value, .ofString name⟩ name
  change NodeMirrors _ _ (evaluate ⟨frame, value, .ofString name⟩ n).result at stayed
  rw [run] at stayed
  cases stayed with
  | ok same =>
    intro f hf
    have own := List.map_inj_left.mp ((List.map_id found).trans same) f hf
    exact congrArg (fun f => f.path.root) own

end Rules

end Conform
