import Conform.Proofs.Validator.Twins

/-! Twins at records and variables: the schemas asked for are those that tags make for the values at
hand. -/
namespace Conform.Validator

/-- The schemas that fields ask for, with those of records inside to the given depth. -/
def fieldSources (o : Validator) : Nat → List Field → List Source
  | 0, _ => []
  | depth + 1, fields => fields.flatMap fun f =>
    let value := (o.hooks.convert.getD id) f.value
    tagSource ((o.directivesOf f).erase Tag.requiredKey) value ::
      match value with
      | .record _ inner => fieldSources o depth inner
      | _ => []

def recordSources (o : Validator) (value : Value) : List Source :=
  match value with
  | .record _ fields => o.fieldSources value.recordDepth fields
  | _ => []

def variableSource (value : Value) (tag : String) : Source :=
  tagSource ((Tag.parse tag).erase Tag.requiredKey) value

variable {E : Node → Node → Prop} {P : Source → Prop} {o : Validator} {shared : Listing Checker}
  {descend : List Field → Validating (List Finding)}

theorem directivesOf_of_twins {v w : Validator} (twins : Twins o P v w) (f : Field) :
    v.directivesOf f = o.directivesOf f ∧ w.directivesOf f = o.directivesOf f := by
  unfold directivesOf
  rw [twins.options, twins.hooks.1, twins.hooks.2, twins.tagName]
  exact ⟨rfl, rfl⟩

theorem parallel_checkDirectives (likeness : Likeness E) (coherent : Coherent E P) (path : String)
    {directives : Listing Value} {value : Value}
    (asked : P (tagSource (directives.erase Tag.requiredKey) value))
    (inside : ∀ className inner, value = .record className inner →
      Work.Parallel (Twins o P) Eq (descend inner) (descend inner)) :
    Work.Parallel (Twins o P) Eq
      (checkDirectives shared descend path directives value)
      (checkDirectives shared descend path directives value) := by
  unfold checkDirectives
  refine .bind .get fun v w twins => ?_
  have recursive : w.options.recursive = v.options.recursive := by rw [twins.options]
  rw [recursive]
  dsimp only
  split
  · exact .pure rfl
  · split
    · exact .pure rfl
    · split
      · exact (inside _ _ rfl).bind fun found _ same => .pure (by rw [same])
      · split
        · exact .pure rfl
        · exact parallel_validateWith likeness coherent _ asked path

theorem parallel_checkField (likeness : Likeness E) (coherent : Coherent E P) {f : Field}
    {depth : Nat} {fields : List Field} (mem : f ∈ fields)
    (asked : ∀ a ∈ o.fieldSources (depth + 1) fields, P a)
    (inside : ∀ inner, (∀ a ∈ o.fieldSources depth inner, P a) →
      Work.Parallel (Twins o P) Eq (descend inner) (descend inner)) :
    Work.Parallel (Twins o P) Eq (checkField shared descend f) (checkField shared descend f) := by
  simp only [fieldSources, List.mem_flatMap] at asked
  have own := asked _ ⟨f, mem, .head _⟩
  unfold checkField
  refine .bind .get fun v w twins => ?_
  obtain ⟨directives, directives'⟩ := directivesOf_of_twins twins f
  rw [directives, directives', twins.hooks.1, twins.hooks.2]
  dsimp only
  split
  · exact .pure rfl
  · split
    · exact .fail _
    · exact .pure rfl
    · refine parallel_checkDirectives likeness coherent f.name own fun _ inner record => ?_
      exact inside inner fun a ha => asked a ⟨f, mem, .tail _ (by rw [record]; exact ha)⟩

theorem parallel_checkFields {fields : List Field}
    (each : ∀ f ∈ fields,
      Work.Parallel (Twins o P) Eq (checkField shared descend f) (checkField shared descend f)) :
    Work.Parallel (Twins o P) Eq
      (checkFields shared descend fields) (checkFields shared descend fields) := by
  induction fields with
  | nil => exact .pure rfl
  | cons f fs ih =>
    unfold checkFields
    refine (each f (.head _)).bind fun found _ same => ?_
    subst same
    refine .bind .get fun v w twins => ?_
    have stopping : w.options.stopAtFirst = v.options.stopAtFirst := by rw [twins.options]
    rw [stopping]
    split
    · exact .pure rfl
    · exact (ih fun f hf => each f (.tail _ hf)).bind fun more _ same => .pure (by rw [same])

theorem parallel_checkRecord (likeness : Likeness E) (coherent : Coherent E P) :
    ∀ (depth : Nat) (fields : List Field), (∀ a ∈ o.fieldSources depth fields, P a) →
      Work.Parallel (Twins o P) Eq
        (checkRecord shared depth fields) (checkRecord shared depth fields)
  | 0, _, _ => .fail _
  | depth + 1, fields, asked => by
    unfold checkRecord
    exact parallel_checkFields fun f hf => parallel_checkField likeness coherent hf asked
      (parallel_checkRecord likeness coherent depth)

theorem parallel_raiseFindings (found : List Finding) :
    Work.Parallel (Twins o P) Eq (raiseFindings found) (raiseFindings found) := by
  unfold raiseFindings
  split
  · exact .pure rfl
  · exact .fail _

theorem parallel_validateRecord (likeness : Likeness E) (coherent : Coherent E P) (value : Value)
    (asked : ∀ a ∈ o.recordSources value, P a) :
    Work.Parallel (Twins o P) Eq (validateRecord shared value) (validateRecord shared value) := by
  unfold validateRecord validateRecordTo
  split
  · refine (parallel_checkRecord likeness coherent _ _ asked).bind fun found _ same => ?_
    subst same
    exact parallel_raiseFindings found
  · exact .fail _

theorem parallel_validateVariable (likeness : Likeness E) (coherent : Coherent E P) (value : Value)
    (tag : String) (asked : P (variableSource value tag)) :
    Work.Parallel (Twins o P) Eq
      (validateVariable shared value tag) (validateVariable shared value tag) := by
  unfold validateVariable
  dsimp only
  split
  · exact parallel_raiseFindings _
  · split
    · exact .pure rfl
    · refine (parallel_validateWith likeness coherent value asked _).bind fun found _ same => ?_
      subst same
      exact parallel_raiseFindings found

end Conform.Validator
