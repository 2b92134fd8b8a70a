import Conform.Proofs.Rules.Truncation
import Conform.Proofs.Validator.Conduct

/-! A validator that stops gives the first finding of a record. It goes in step with one that does
not stop until something is found; the step of every loop keeps that, however deep the records
are. -/
namespace Conform

def Rule.IgnoresStop (r : Rule) : Prop := r.handler.IgnoresStop

namespace Validator

/-- The validator set to stop, or not, at the first finding. -/
def withStop (stop : Bool) (v : Validator) : Validator :=
  { v with options := { v.options with stopAtFirst := stop } }

/-- How work of a validator that does not stop comes out, and beside it that of one that does: both
find nothing and are left alike, or the second gives the first finding of the other, whatever that
one still meets, or both fail alike. -/
inductive Truncated :
    Except Failure (List Finding) × Validator → Except Failure (List Finding) × Validator → Prop
  | clean (w : Validator) : Truncated (.ok [], w.withStop false) (.ok [], w.withStop true)
  | found (f : Finding) (fs : List Finding) (w w' : Validator) :
    Truncated (.ok (f :: fs), w) (.ok [f], w')
  | late {e : Failure} (hard : e.Hard) (f : Finding) (w w' : Validator) :
    Truncated (.error e, w) (.ok [f], w')
  | failed (e : Failure) (w w' : Validator) : Truncated (.error e, w) (.error e, w')

/-- Work that is cut off after its first finding where its validator stops. -/
def Truncates (x : Validating (List Finding)) : Prop :=
  ∀ v : Validator, v.HasRules Rule.IgnoresStop →
    Truncated (x.outcome (v.withStop false)) (x.outcome (v.withStop true))

variable {shared : Listing Checker} {descend : List Field → Validating (List Finding)}

theorem HasRules.withStop {P : Rule → Prop} {v : Validator} (h : v.HasRules P) (stop : Bool) :
    (v.withStop stop).HasRules P := ⟨h.rules, h.memory⟩

theorem truncates_nil : Truncates (pure []) := fun v _ => .clean v

theorem truncates_single (f : Finding) : Truncates (pure [f]) := fun _ _ => .found f [] _ _

theorem truncates_fault (f : Fault) : Truncates (fault f) := fun _ _ => .failed _ _ _

/-- Where a record's own options and hooks are read, it makes no difference whether it stops. -/
theorem Truncates.get_bind {f : Validator → Validating (List Finding)}
    (same : ∀ v : Validator, f (v.withStop true) = f (v.withStop false))
    (h : ∀ v, Truncates (f v)) : Truncates (Work.get >>= f) := by
  intro v rules
  rw [Work.outcome_get_bind, Work.outcome_get_bind, same]
  exact h _ v rules

theorem remember_withStop (stop : Bool) (v : Validator) (key : Option String) (c : Compiled) :
    (v.withStop stop).remember key c = (v.remember key c).withStop stop := by
  unfold remember
  cases key with
  | none => rfl
  | some k =>
    change (if v.options.caching then _ else _) = withStop stop (if v.options.caching then _ else _)
    split
    · rfl
    · rfl

/-- Schemas are compiled and remembered in the same way. -/
theorem outcome_compileFor_withStop (purpose : Purpose) (a : Source) (stop : Bool) (v : Validator) :
    (compileFor purpose a).outcome (v.withStop stop) =
      (((compileFor purpose a).outcome v).1, ((compileFor purpose a).outcome v).2.withStop stop) := by
  have sameMemory : (v.withStop stop).remembered? a.memoText? = v.remembered? a.memoText? := rfl
  have sameRules : compileAnew purpose a (v.withStop stop) = compileAnew purpose a v := rfl
  cases remembered : v.remembered? a.memoText? with
  | some c =>
    rw [outcome_compileFor_of_remembered remembered,
      outcome_compileFor_of_remembered (sameMemory.trans remembered)]
  | none =>
    rw [outcome_compileFor_of_not_remembered remembered,
      outcome_compileFor_of_not_remembered (sameMemory.trans remembered), sameRules]
    cases compileAnew purpose a v with
    | error e => rfl
    | ok n =>
      change (_, { (v.withStop stop).remember a.memoText? ⟨v.made, n⟩ with made := v.made + 1 }) = _
      rw [remember_withStop]
      rfl

/-- The engine's own truncation, for a schema whose rules do not see whether the run is to stop. -/
theorem truncates_validate (value : Value) {n : Node} (root : String)
    (compiled : n.CompiledFrom Rule.IgnoresStop) : Truncates (validate shared value n root) := by
  intro v _
  rw [outcome_validate, outcome_validate]
  let s : Rules.Subject := ⟨v.frame shared, value, .ofString root⟩
  have cut := Rules.cuts_of_every compiled.every_usable compiled.every_rule s
  have short : ∀ found, (Rules.evaluate s.stopping n).result = .ok found → found.length ≤ 1 :=
    fun _ => Rules.length_le_one_of_evaluate_stopping
  change Truncated ((Rules.evaluate s.exhaustive n).result.mapError .fault, v.withStop false)
    ((Rules.evaluate s.stopping n).result.mapError .fault, v.withStop true)
  generalize (Rules.evaluate s.exhaustive n).result = x, (Rules.evaluate s.stopping n).result = y
    at cut short
  cases cut with
  | failed e => exact .failed _ _ _
  | @early e f fs _ =>
    have one := short _ rfl
    obtain rfl : fs = [] := by simpa using one
    have hard : (Failure.fault e).Hard := trivial
    exact .late hard f _ _
  | @alike all some first =>
    have one := short _ rfl
    match some, all, first with
    | [], [], _ => exact .clean v
    | [f], g :: gs, first =>
      obtain rfl : f = g := by simpa using first
      exact .found f gs _ _
    | f :: f' :: fs, _, _ => simp at one

theorem truncates_validateWith (value : Value) (a : Source) (root : String) :
    Truncates (validateWith shared value a root) := by
  intro v rules
  have exhaustive := outcome_compileFor_withStop .compiling a false v
  have stopping := outcome_compileFor_withStop .compiling a true v
  have kept := (orderly_compileFor .compiling a).hasRules v _ rules
  unfold validateWith compile
  cases outcome : (compileFor .compiling a).outcome v with
  | mk result w =>
    rw [outcome] at exhaustive stopping kept
    cases result with
    | error e =>
      rw [Work.outcome_bind_of_error exhaustive, Work.outcome_bind_of_error stopping]
      exact .failed e _ _
    | ok c =>
      rw [Work.outcome_bind_of_ok exhaustive, Work.outcome_bind_of_ok stopping]
      have compiled := compiledFrom_of_compileFor rules outcome
      exact truncates_validate value root compiled w kept

theorem Truncates.nest {x : Validating (List Finding)} (h : Truncates x) (path : String) :
    Truncates (x >>= fun found => pure (nest path found)) := by
  intro v rules
  have outcomes := h v rules
  rw [Work.outcome_bind, Work.outcome_bind]
  generalize x.outcome (v.withStop false) = a, x.outcome (v.withStop true) = b at outcomes
  cases outcomes with
  | clean w => exact .clean w
  | found f fs w w' => exact .found _ _ w w'
  | late hard f w w' => exact .late hard _ w w'
  | failed e w w' => exact .failed e w w'

theorem truncates_checkDirectives (descends : ∀ fields, Truncates (descend fields)) (path : String)
    (directives : Listing Value) (value : Value) :
    Truncates (checkDirectives shared descend path directives value) := by
  unfold checkDirectives
  apply Truncates.get_bind (fun _ => rfl)
  intro v
  dsimp only
  split
  · exact truncates_single _
  · split
    · exact truncates_nil
    · split
      · exact (descends _).nest path
      · split
        · exact truncates_nil
        · exact truncates_validateWith _ _ path

theorem truncates_checkField (shared : Listing Checker)
    (descends : ∀ fields, Truncates (descend fields)) (f : Field) :
    Truncates (checkField shared descend f) := by
  unfold checkField
  apply Truncates.get_bind (fun _ => rfl)
  intro v
  dsimp only
  split
  · exact truncates_nil
  · split
    · exact truncates_fault _
    · exact truncates_single _
    · exact truncates_checkDirectives descends f.name _ _

/-- The loop over the fields. Where the first field finds something, one run ends and the other goes
on, and may at most fail hard. -/
theorem truncates_checkFields (orderly : ∀ fields, Orderly (descend fields))
    (descends : ∀ fields, Truncates (descend fields)) (fields : List Field) :
    Truncates (checkFields shared descend fields) := by
  induction fields with
  | nil => exact truncates_nil
  | cons f fs ih =>
    intro v rules
    have outcomes := truncates_checkField shared descends f v rules
    have first := orderly_checkField shared orderly f
    have rest := orderly_checkFields shared orderly fs
    have goesOn := (first.continues (v.withStop false)).options
    have stops := (first.continues (v.withStop true)).options
    have kept := first.hasRules (v.withStop true) _ (rules.withStop true)
    rw [outcome_checkFields_cons, outcome_checkFields_cons]
    generalize (checkField shared descend f).outcome (v.withStop false) = a,
      (checkField shared descend f).outcome (v.withStop true) = b at outcomes goesOn stops kept
    cases outcomes with
    | failed e w w' => exact .failed e w w'
    | late hard f w w' =>
      have stop : w'.options.stopAtFirst = true := by rw [stops]; rfl
      simp only [stop, Bool.true_and, List.isEmpty_cons, Bool.not_false, if_true]
      exact .late hard f w w'
    | found g gs w w' =>
      have stop : w'.options.stopAtFirst = true := by rw [stops]; rfl
      have go : w.options.stopAtFirst = false := by rw [goesOn]; rfl
      simp only [stop, go, Bool.true_and, Bool.false_and, List.isEmpty_cons, Bool.not_false, if_true]
      have hard := rest.hard w
      generalize (checkFields shared descend fs).outcome w = c at hard
      obtain ⟨e | more, u⟩ := c
      · exact .late (hard e rfl) g u w'
      · exact .found g (gs ++ more) u w'
    | clean w =>
      have later := ih w ⟨kept.rules, kept.memory⟩
      simp only [List.isEmpty_nil, Bool.not_true, Bool.and_false, Bool.false_eq_true, if_false]
      generalize (checkFields shared descend fs).outcome (w.withStop false) = c,
        (checkFields shared descend fs).outcome (w.withStop true) = d at later
      cases later with
      | clean u => exact .clean u
      | found g gs u u' => exact .found g gs u u'
      | late hard g u u' => exact .late hard g u u'
      | failed e u u' => exact .failed e u u'

theorem truncates_checkRecord (shared : Listing Checker) (depth : Nat) (fields : List Field) :
    Truncates (checkRecord shared depth fields) := by
  induction depth generalizing fields with
  | zero => exact truncates_fault _
  | succ depth ih => exact truncates_checkFields (orderly_checkRecord shared depth) ih fields

/-- Stopping at the first finding cuts the findings of a record off after the first, whatever its
tags, its hooks and the options are and however deep records are looked into: a record without
findings stays without, findings become the first of them, and a stopped run fails hard only as the
other one does. -/
theorem validateRecordTo_stopping {v : Validator} (rules : v.HasRules Rule.IgnoresStop)
    (shared : Listing Checker) (depth : Nat) (value : Value) :
    let all := (validateRecordTo shared depth value (v.withStop false)).1.result
    let one := (validateRecordTo shared depth value (v.withStop true)).1.result
    (all = .ok () → one = .ok ()) ∧
    (∀ found, all = .error (.findings found) → one = .error (.findings (found.take 1))) ∧
    ∀ e : Failure, e.Hard → one = .error e → all = .error e := by
  intro all one
  cases value with
  | record className fields =>
    have outcomes := truncates_checkRecord shared depth fields v rules
    have hard := (orderly_checkRecord shared depth fields).hard (v.withStop false)
    have whole : all = ((checkRecord shared depth fields >>= raiseFindings).outcome
      (v.withStop false)).1 := rfl
    have first : one = ((checkRecord shared depth fields >>= raiseFindings).outcome
      (v.withStop true)).1 := rfl
    rw [Work.outcome_bind] at whole first
    generalize (checkRecord shared depth fields).outcome (v.withStop false) = a,
      (checkRecord shared depth fields).outcome (v.withStop true) = b at outcomes hard whole first
    rw [whole, first]
    cases outcomes with
    | clean w => exact ⟨fun _ => rfl, nofun, nofun⟩
    | found f fs w w' =>
      refine ⟨nofun, fun found same => ?_, fun e final same => ?_⟩
      · cases same
        rfl
      · cases same
        cases final
    | late _ f w w' =>
      refine ⟨nofun, fun found same => ?_, fun e final same => ?_⟩
      · cases same
        cases hard _ rfl
      · cases same
        cases final
    | failed e w w' =>
      refine ⟨nofun, fun found same => ?_, fun e final same => same⟩
      · cases same
        cases hard _ rfl
  | _ =>
    have whole : all = .error (.fault (.input (.notARecord _))) := rfl
    have first : one = .error (.fault (.input (.notARecord _))) := rfl
    rw [whole, first]
    exact ⟨nofun, nofun, fun _ _ same => same⟩

/-- An account without a name, at an address without a city. -/
def blankAccount : Value :=
  .record "Account" [.mk "name" [("validate", "required")] (.string ""),
    .mk "address" [("validate", "required")]
      (.record "Address" [.mk "city" [("validate", "required")] (.string "")])]

/-- Both names are missed to the end, and the outer one alone when stopped. -/
theorem validateRecordTo_stopping_blankAccount :
    let v : Validator := { options := { recursive := true } }
    v.HasRules Rule.IgnoresStop ∧
    (validateRecordTo [] 2 blankAccount (v.withStop false)).1.result =
      .error (.findings [fieldRequired "name", fieldRequired "address.city"]) ∧
    (validateRecordTo [] 2 blankAccount (v.withStop true)).1.result =
      .error (.findings [fieldRequired "name"]) := by
  intro v
  have rules : v.HasRules Rule.IgnoresStop := hasRules_of_builtins rfl rfl fun _ _ => trivial
  have all : (validateRecordTo [] 2 blankAccount (v.withStop false)).1.result =
      .error (.findings [fieldRequired "name", fieldRequired "address.city"]) := rfl
  exact ⟨rules, all, (validateRecordTo_stopping rules [] 2 blankAccount).2.1 _ all⟩

end Validator

end Conform
