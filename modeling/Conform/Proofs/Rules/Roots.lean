import Conform.Proofs.Path
import Conform.Proofs.Rules.Reroot
import Conform.Proofs.Rules.Safety

/-! Where a value is validated does not matter. Below any two roots a compiled schema finds the same,
and of each path only the root differs. -/
namespace Conform

/-- Findings that say the same of one place, once below the root `p` and once below `q`. -/
structure Finding.SameBelow (p q : String) (f g : Finding) : Prop where
  message : f.message = g.message
  tag : f.tag = g.tag
  value : f.value = g.value
  param : f.param = g.param
  path : ∃ suffix, f.path.text = p ++ suffix ∧ g.path.text = q ++ suffix

namespace Rules

theorem sameBelow_reroot {p q : String} {f : Finding} (root : f.path.root = p) (hp : p ≠ "") (hq : q ≠ "") :
    f.SameBelow p q (f.reroot q) where
  message := rfl
  tag := rfl
  value := rfl
  param := rfl
  path := by
    refine ⟨f.path.suffix, ?_, ?_⟩
    · rw [Path.text_eq_append (root ▸ hp), root]
    · exact Path.text_eq_append (p := f.path.reroot q) hq

/-- Two runs of one node below different roots: their findings correspond, or both fail. -/
theorem mirrors_sameBelow {n : Node} (reroots : Reroots n) (frame : Frame) (value : Value)
    {p q : String} (hp : p ≠ "") (hq : q ≠ "") :
    Mirrors (fun _ _ : Fault => True) (List.Forall₂ (Finding.SameBelow p q))
      (evaluate ⟨frame, value, .ofString p⟩ n).result
      (evaluate ⟨frame, value, .ofString q⟩ n).result := by
  have moved := reroots ⟨frame, value, .ofString p⟩ q
  change NodeMirrors _ _ (evaluate ⟨frame, value, .ofString q⟩ n).result at moved
  generalize run : (evaluate ⟨frame, value, .ofString p⟩ n).result = x at moved
  generalize (evaluate ⟨frame, value, .ofString q⟩ n).result = y at moved
  cases moved with
  | error => exact .error trivial
  | ok same =>
    subst same
    have roots := root_of_reroots reroots run
    refine .ok (List.forall₂_map_right_iff.mpr (List.forall₂_same.mpr fun f hf => ?_))
    exact sameBelow_reroot (roots f hf) hp hq

/-- A schema compiled against the built-in rules finds the same below any two roots that are not
empty: as many findings in one order, each with the same message, tag, value and parameter, and with
the same path after the root. With formats that answer it finds them; with others both runs end, or
both fail. -/
theorem evaluate_roots {mode : Mode} {raw : Value} {n : Node}
    (compiled : (compileSchema Rule.builtins mode raw).result = .ok n) (frame : Frame)
    (value : Value) {p q : String} (hp : p ≠ "") (hq : q ≠ "") :
    Mirrors (fun _ _ : Fault => True) (List.Forall₂ (Finding.SameBelow p q))
      (evaluate ⟨frame, value, .ofString p⟩ n).result
      (evaluate ⟨frame, value, .ofString q⟩ n).result ∧
    (frame.Answers → ∃ found found',
      (evaluate ⟨frame, value, .ofString p⟩ n).result = .ok found ∧
      (evaluate ⟨frame, value, .ofString q⟩ n).result = .ok found' ∧
      List.Forall₂ (Finding.SameBelow p q) found found') := by
  have compiles := result_compileSchema_eq_ok_iff.mp compiled
  have parametric : n.Every fun m => ∀ e ∈ m.entries, ∀ r, e.rule = some r → r.Parametric := by
    apply compiles.every_rule
    intro key r found
    rw [Rule.get?_builtins, Option.map_eq_some_iff] at found
    obtain ⟨k, -, rfl⟩ := found
    trivial
  have mirrors := mirrors_sameBelow (reroots_of_parametric parametric) frame value hp hq
  refine ⟨mirrors, fun answers => ?_⟩
  have safe : Safe frame.formats n := safe_of_compiles compiles
    fun _ same name checker => same ▸ answers name checker
  obtain ⟨found, run⟩ := safe.runs (s := ⟨frame, value, .ofString p⟩) rfl
  obtain ⟨found', run'⟩ := safe.runs (s := ⟨frame, value, .ofString q⟩) rfl
  rw [run, run'] at mirrors
  cases mirrors with
  | ok same => exact ⟨found, found', run, run', same⟩

/-- Findings at an element, at a branch and at a member nobody knows. -/
def rootedSchema : Value :=
  .object .mutable [
    ("properties", .object .mutable [("a", .object .mutable [("items",
      .object .mutable [("type", .string "string")])])]),
    ("allOf", .list [.object .mutable [("required", .list [.string "b"])]]),
    ("additionalProperties", .bool false)]

def rootedNode : Node :=
  .mk .strict
    [.mk "properties" (.named [("a", .mk .strict [.mk "items" (.node (.mk .strict
        [.mk "type" (.plain (.string "string")) (some (.of .type))] [] []))
        (some (.of .items))] [] [])]) (some (.of .properties)),
      .mk "allOf" (.nodes [.mk .strict [.mk "required"
        (.plain (.array .frozen [.string "b"])) (some (.of .required))] [] []])
        (some (.of (.combine .allOf))),
      .mk "additionalProperties" (.plain (.bool false)) (some (.of .additionalProperties))] [] []

theorem evaluate_roots_rootedNode :
    let value : Value := .object .mutable [("a", .list [.ofInt 5]), ("c", .null)]
    (compileSchema Rule.builtins .strict rootedSchema).result = .ok rootedNode ∧
    ("$" ≠ "" ∧ "var" ≠ "") ∧ Frame.Answers {} ∧
    ∃ found found', (evaluate ⟨{}, value, .ofString "$"⟩ rootedNode).result = .ok found ∧
      (evaluate ⟨{}, value, .ofString "var"⟩ rootedNode).result = .ok found' ∧
      List.Forall₂ (Finding.SameBelow "$" "var") found found' ∧
      found.map (·.path.text) = ["$.a[0]", "$.allOf[0].b", "$.c"] ∧
      found'.map (·.path.text) = ["var.a[0]", "var.allOf[0].b", "var.c"] := by
  intro value
  have compiled : (compileSchema Rule.builtins .strict rootedSchema).result = .ok rootedNode := rfl
  have filled : "$" ≠ "" ∧ "var" ≠ "" := by decide
  have answers : Frame.Answers {} := Frame.answers_of_builtins rfl
  obtain ⟨-, ends⟩ := evaluate_roots compiled {} value filled.1 filled.2
  obtain ⟨found, found', run, run', same⟩ := ends answers
  refine ⟨compiled, filled, answers, found, found', run, run', same, ?_, ?_⟩
  · cases run
    rfl
  · cases run'
    rfl

end Rules

end Conform
