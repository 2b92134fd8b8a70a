import Conform.Proofs.Validator.Conduct

/-! A field on its own. Without hooks a tag asks something of the value as it is, and of a record
that is looked into it asks nothing but what the fields in there are asked. What is found is raised
in the end. -/
namespace Conform.Validator

/-- A value that is not looked into further, with where it is and what its tag asks of it. -/
structure Demand where
  path : String
  directives : Listing Value
  value : Value

/-- What a single demand finds. -/
def Demand.check (shared : Listing Checker) (d : Demand) : Validating (List Finding) :=
  let required := isRequired d.directives
  let rest := d.directives.erase Tag.requiredKey
  if required && d.value.isZero then pure [fieldRequired d.path]
  else if !required && d.value.isNull then pure []
  else if rest.isEmpty then pure []
  else validateWith shared d.value (tagSource rest d.value) d.path

variable {shared : Listing Checker} {descend : List Field → Validating (List Finding)} {name : String}

theorem checkDirectives_of_plain {directives : Listing Value} {value : Value}
    (plain : ∀ className fields, value ≠ .record className fields) (w : Validator) :
    (checkDirectives shared descend name directives value).outcome w =
      (Demand.check shared ⟨name, directives, value⟩).outcome w := by
  unfold checkDirectives Demand.check
  rw [Work.outcome_get_bind]
  dsimp only
  split
  · rfl
  · split
    · rfl
    · split
      · exact absurd rfl (plain _ _)
      · rfl

/-- A record is looked into, whatever its directives are. -/
theorem checkDirectives_of_record {directives : Listing Value} {className : String}
    {fields : List Field} {w : Validator} (recursive : w.options.recursive = true) :
    (checkDirectives shared descend name directives (.record className fields)).outcome w =
      (descend fields >>= fun found => pure (nest name found)).outcome w := by
  unfold checkDirectives
  rw [Work.outcome_get_bind]
  dsimp only
  rw [recursive]
  simp [Value.isZero, Value.isNull]

/-- Without hooks a field is checked as it is. -/
theorem checkField_of_no_hooks {w : Validator} (hooks : w.hooks = {}) (f : Field) :
    (checkField shared descend f).outcome w =
      if (w.directivesOf f).isEmpty then (.ok [], w)
      else (checkDirectives shared descend f.name (w.directivesOf f) f.value).outcome w := by
  unfold checkField
  rw [Work.outcome_get_bind, hooks]
  dsimp only
  split
  · rfl
  · rfl

theorem outcome_checkFields_singleton {descend : List Field → Validating (List Finding)}
    (f : Field) (v : Validator) : (checkFields shared descend [f]).outcome v =
      (checkField shared descend f).outcome v := by
  rw [outcome_checkFields_cons]
  generalize (checkField shared descend f).outcome v = x
  obtain ⟨e | found, w⟩ := x
  · rfl
  · dsimp only
    split
    · rfl
    · change (Except.ok (found ++ []), w) = _
      rw [List.append_nil]

/-- What work that finds something is raised as. -/
def raised : Except Failure (List Finding) → Except Failure Unit
  | .ok [] => .ok ()
  | .ok (f :: fs) => .error (.findings (f :: fs))
  | .error e => .error e

theorem result_raiseFindings (w : Validating (List Finding)) (v : Validator) :
    ((w >>= raiseFindings).outcome v).1 = raised (w.outcome v).1 := by
  rw [Work.outcome_bind]
  obtain ⟨e | _ | ⟨f, fs⟩, u⟩ := w.outcome v
  · rfl
  · rfl
  · rfl

/-- The only field of a record is asked what its tag demands. -/
theorem result_validateRecord_single {value : Value} {v : Validator}
    (plain : ∀ className fields, value ≠ .record className fields) (hooks : v.hooks = {})
    {labels : List (String × String)} {tag : String}
    (tagged : Listing.get? v.options.tagName labels = some tag) (className name : String) :
    (validateRecord shared (.record className [.mk name labels value]) v).1.result =
      raised ((Demand.check shared ⟨name, Tag.parse tag, value⟩).outcome v).1 := by
  have directives : v.directivesOf (.mk name labels value) = Tag.parse tag := by
    unfold directivesOf
    rw [hooks]
    change ((Listing.get? v.options.tagName labels).map Tag.parse).getD [] = _
    rw [tagged]
    rfl
  have field (descend : List Field → Validating (List Finding)) :
      (checkField shared descend (.mk name labels value)).outcome v =
        (Demand.check shared ⟨name, Tag.parse tag, value⟩).outcome v := by
    rw [checkField_of_no_hooks hooks, directives]
    split
    · next none =>
      rw [List.isEmpty_iff.mp none]
      unfold Demand.check
      cases value.isNull <;> rfl
    · exact checkDirectives_of_plain plain v
  let fields : List Field := [.mk name labels value]
  have whole : (validateRecord shared (.record className fields) v).1.result =
      ((checkFields shared (checkRecord shared (fieldsDepth fields)) fields >>=
        raiseFindings).outcome v).1 := rfl
  rw [whole, result_raiseFindings, outcome_checkFields_singleton, field]

end Conform.Validator
