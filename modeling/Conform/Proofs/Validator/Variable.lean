import Conform.Proofs.Rules.Abort
import Conform.Proofs.Rules.Roots
import Conform.Proofs.Validator.Demand

/-! A variable and the only field of a record. Both ask the same demand of their value, at paths of
their own, so whatever comes of the one comes of the other with its path in place. -/
namespace Conform.Validator

/-- How work comes out at a root and, in the same validator, at another: findings move from the one
to the other, what fails before a run fails alike, and a run that fails does so on both sides in the
name of a rule. -/
inductive Moved (root name : String) :
    Except Failure (List Finding) → Except Failure (List Finding) → Prop
  | found {found : List Finding} (own : ∀ f ∈ found, f.path.root = root) :
    Moved root name (.ok found) (.ok (found.map (Finding.reroot name)))
  | refused {e : Failure} (hard : e.Hard) : Moved root name (.error e) (.error e)
  | broken (keyword path text keyword' path' text' : String) :
    Moved root name (.error (.fault (.ruleFailed keyword path text)))
      (.error (.fault (.ruleFailed keyword' path' text')))

namespace Moved

variable {root name : String} {x y : Except Failure (List Finding)} (moved : Moved root name x y)
include moved

theorem raised_ok_iff : raised y = .ok () ↔ raised x = .ok () := by
  cases moved with
  | @found found => cases found <;> simp [raised]
  | refused | broken => simp [raised]

theorem raised_findings_iff (fs : List Finding) : raised y = .error (.findings fs) ↔
    ∃ found, raised x = .error (.findings found) ∧ fs = found.map (Finding.reroot name) := by
  cases moved with
  | @found found => cases found <;> simp [raised, eq_comm]
  | @refused e hard =>
    cases e with
    | findings => exact hard.elim
    | _ => simp [raised]
  | broken => simp [raised]

theorem root_of_raised {found : List Finding} (h : raised x = .error (.findings found)) :
    ∀ f ∈ found, f.path.root = root := by
  cases moved with
  | @found found own =>
    cases found with
    | nil => cases h
    | cons =>
      cases h
      exact own
  | @refused e hard =>
    cases h
    exact hard.elim
  | broken => cases h

theorem raised_rejected_iff (purpose : Purpose) (cause : SchemaFault) :
    raised y = .error (.fault (.rejected purpose cause)) ↔
      raised x = .error (.fault (.rejected purpose cause)) := by
  cases moved with
  | @found found => cases found <;> simp [raised]
  | refused | broken => simp [raised]

end Moved

section

variable {shared : Listing Checker} {value : Value} {v : Validator} {root name : String}

theorem moved_validate {n : Node} (built : n.CompiledFrom Rule.BuiltIn) :
    Moved root name ((validate shared value n root).outcome v).1
      ((validate shared value n name).outcome v).1 := by
  have builtIn := built.every_rule
  have parametric : n.Every fun m => ∀ e ∈ m.entries, ∀ r, e.rule = some r → r.Parametric := by
    refine builtIn.imp fun m own e he r ruled => ?_
    obtain ⟨k, handler⟩ := own e he r ruled
    unfold Rule.Parametric
    rw [handler]
    trivial
  have reroots := Rules.reroots_of_parametric parametric
  have moved := reroots ⟨v.frame shared, value, .ofString root⟩ name
  change Rules.NodeMirrors _ _
    (Rules.evaluate ⟨v.frame shared, value, .ofString name⟩ n).result at moved
  rw [outcome_validate, outcome_validate]
  generalize run : (Rules.evaluate ⟨v.frame shared, value, .ofString root⟩ n).result = x,
    run' : (Rules.evaluate ⟨v.frame shared, value, .ofString name⟩ n).result = y at moved
  cases moved with
  | ok same =>
    subst same
    exact .found (Rules.root_of_reroots reroots run)
  | error =>
    obtain ⟨keyword, path, text, rfl⟩ := Rules.exists_ruleFailed_of_builtIn builtIn run
    obtain ⟨keyword', path', text', rfl⟩ := Rules.exists_ruleFailed_of_builtIn builtIn run'
    exact .broken ..

/-- A schema is compiled, or not, before anyone asks for a path. -/
theorem moved_validateWith (rules : v.HasRules Rule.BuiltIn) (a : Source) :
    Moved root name ((validateWith shared value a root).outcome v).1
      ((validateWith shared value a name).outcome v).1 := by
  unfold validateWith
  rw [Work.outcome_bind, Work.outcome_bind]
  have hard := (orderly_compileFor .compiling a).hard v
  have compiled : ∀ c w, (compile a).outcome v = (.ok c, w) →
      c.node.CompiledFrom Rule.BuiltIn := fun c w => compiledFrom_of_compileFor rules
  change ∀ e, ((compile a).outcome v).1 = .error e → e.Hard at hard
  generalize (compile a).outcome v = x at hard compiled
  obtain ⟨e | c, w⟩ := x
  · exact .refused (hard e rfl)
  · exact moved_validate (compiled c w rfl)

theorem moved_check (rules : v.HasRules Rule.BuiltIn) (directives : Listing Value) :
    Moved root name ((Demand.check shared ⟨root, directives, value⟩).outcome v).1
      ((Demand.check shared ⟨name, directives, value⟩).outcome v).1 := by
  have nothing : Moved root name (.ok []) (.ok []) := @Moved.found root name [] nofun
  have missing : ∀ f ∈ [fieldRequired root], f.path.root = root := fun f hf => by
    obtain rfl := List.mem_singleton.mp hf
    rfl
  unfold Demand.check
  dsimp only
  split
  · exact .found missing
  · split
    · exact nothing
    · split
      · exact nothing
      · exact moved_validateWith rules _

variable {tag : String}

/-- A variable that is not null is asked what its tag demands. -/
theorem result_validateVariable_of_ne_null (filled : value ≠ .null) :
    (validateVariable shared value tag v).1.result =
      raised ((Demand.check shared ⟨variableName, Tag.parse tag, value⟩).outcome v).1 := by
  have present : value.isNull = false := by
    cases value with
    | null => exact absurd rfl filled
    | _ => rfl
  rw [← result_raiseFindings]
  unfold validateVariable Demand.check
  dsimp only
  rw [present, Bool.and_false]
  split
  · rfl
  · split
    · rfl
    · rfl

/-- A value that is no record and not null fares alike as a variable and as the only field of a
record under the same tag. Both pass or neither does; what is found on one side is found on the
other, as much of it in the same order, and only the root of its paths differs; and a schema that
cannot be compiled is refused in the same words. -/
theorem validateRecord_single_iff (plain : ∀ className fields, value ≠ .record className fields)
    (filled : value ≠ .null) (hooks : v.hooks = {}) (rules : v.HasRules Rule.BuiltIn)
    {labels : List (String × String)}
    (tagged : Listing.get? v.options.tagName labels = some tag) (className name : String) :
    let onVariable := (validateVariable shared value tag v).1.result
    let onRecord := (validateRecord shared (.record className [.mk name labels value]) v).1.result
    (onRecord = .ok () ↔ onVariable = .ok ()) ∧
    (∀ raised, onRecord = .error (.findings raised) ↔ ∃ found,
      onVariable = .error (.findings found) ∧ raised = found.map (Finding.reroot name)) ∧
    (∀ found, onVariable = .error (.findings found) → (∀ f ∈ found, f.path.root = "var") ∧
      (name ≠ "" →
        List.Forall₂ (Finding.SameBelow "var" name) found (found.map (Finding.reroot name)))) ∧
    ∀ purpose cause, onRecord = .error (.fault (.rejected purpose cause)) ↔
      onVariable = .error (.fault (.rejected purpose cause)) := by
  intro onVariable onRecord
  have ofVariable : onVariable = _ := result_validateVariable_of_ne_null filled
  have ofRecord : onRecord = _ := result_validateRecord_single plain hooks tagged className name
  have moved : Moved variableName name
      ((Demand.check shared ⟨variableName, Tag.parse tag, value⟩).outcome v).1
      ((Demand.check shared ⟨name, Tag.parse tag, value⟩).outcome v).1 := moved_check rules _
  rw [ofVariable, ofRecord]
  refine ⟨moved.raised_ok_iff, moved.raised_findings_iff, fun found run => ?_,
    moved.raised_rejected_iff⟩
  have own := moved.root_of_raised run
  refine ⟨own, fun named => List.forall₂_map_right_iff.mpr (List.forall₂_same.mpr fun g hg => ?_)⟩
  exact Rules.sameBelow_reroot (own g hg) (by decide) named

end

/-- A word that asks for nothing, a bound given twice, and choices. -/
def codeTag : String := "required=, min=3 ,enum=ab|xyz,min=4"

theorem parse_codeTag : Tag.parse codeTag =
    [("required", .string ""), ("min", .ofInt 4), ("enum", .list [.string "ab", .string "xyz"])] :=
  rfl

/-- A field with two findings, and one whose type nobody knows. -/
theorem validateRecord_single_iff_code :
    let v : Validator := { options := { mode := .warn } }
    let value : Value := .string "xy"
    let labels := [("validate", codeTag)]
    let mistyped := [("validate", "type=text")]
    let short : Finding := { path := .ofString "var", reason := .beyondLimit .minLength 4 2,
                             tag := "minLength", value, param := some "4" }
    let unlisted : Finding := { path := .ofString "var", reason := .notListed "ab, xyz",
                                tag := "enum", value, param := some "ab, xyz" }
    let moved := [short, unlisted].map (Finding.reroot "code")
    (∀ className fields, value ≠ .record className fields) ∧ value ≠ .null ∧ v.hooks = {} ∧
    v.HasRules Rule.BuiltIn ∧ Listing.get? v.options.tagName labels = some codeTag ∧
    (validateVariable [] value codeTag v).1.result = .error (.findings [short, unlisted]) ∧
    (validateRecord [] (.record "Order" [.mk "code" labels value]) v).1.result =
      .error (.findings moved) ∧
    List.Forall₂ (Finding.SameBelow "var" "code") [short, unlisted] moved ∧
    (validateRecord [] (.record "Order" [.mk "code" mistyped value]) v).1.result =
      .error (.fault (.rejected .compiling (.unknownType "text"))) := by
  intro v value labels mistyped short unlisted moved
  have rules : v.HasRules Rule.BuiltIn := hasRules_of_builtins rfl rfl fun k _ => ⟨k, rfl⟩
  have run : (validateVariable [] value codeTag v).1.result =
      .error (.findings [short, unlisted]) := by
    unfold validateVariable
    rw [parse_codeTag]
    rfl
  obtain ⟨-, findings, alike, -⟩ :=
    @validateRecord_single_iff [] value v codeTag nofun nofun rfl rules labels rfl "Order" "code"
  obtain ⟨-, -, -, refused⟩ :=
    @validateRecord_single_iff [] value v "type=text" nofun nofun rfl rules mistyped rfl "Order"
      "code"
  have unknown : (validateVariable [] value "type=text" v).1.result =
      .error (.fault (.rejected .compiling (.unknownType "text"))) := by
    unfold validateVariable
    rw [show Tag.parse "type=text" = [("type", .string "text")] from rfl]
    rfl
  exact ⟨nofun, nofun, rfl, rules, rfl, run, (findings _).mpr ⟨_, run, rfl⟩,
    (alike _ run).2 (by decide), (refused _ _).mpr unknown⟩

end Conform.Validator
