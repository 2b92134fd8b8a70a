import Conform.Proofs.Validator.Demand

/-! What the validation of a record reaches. It goes into the records in tagged fields and asks of
each field there what its tag says, and it misses nothing of that; what lies behind a field without
a tag is not looked at. -/
namespace Conform

/-- The fields of a record, and those of the records in them, gone into through fields of a kind. -/
inductive Reaches (through : Field → Prop) : List Field → Field → Prop
  | own {fields : List Field} {f : Field} (mem : f ∈ fields) : Reaches through fields f
  | inside {fields inner : List Field} {f g : Field} {className : String} (mem : f ∈ fields)
    (enters : through f) (record : f.value = .record className inner)
    (deeper : Reaches through inner g) : Reaches through fields g

theorem forall_reaches_cons {through : Field → Prop} {P : Field → Prop} {f : Field}
    {fs : List Field} : (∀ g, Reaches through (f :: fs) g → P g) ↔
      (P f ∧ (through f → ∀ className inner, f.value = .record className inner →
        ∀ g, Reaches through inner g → P g)) ∧ ∀ g, Reaches through fs g → P g := by
  constructor
  · intro all
    refine ⟨⟨all f (.own (.head _)), fun enters _ _ record g deeper => ?_⟩, fun g reaches => ?_⟩
    · exact all g (.inside (.head _) enters record deeper)
    · cases reaches with
      | own mem => exact all g (.own (.tail _ mem))
      | inside mem enters record deeper => exact all g (.inside (.tail _ mem) enters record deeper)
  · rintro ⟨⟨own, inside⟩, rest⟩ g reaches
    cases reaches with
    | own mem =>
      rcases List.mem_cons.mp mem with rfl | mem
      · exact own
      · exact rest g (.own mem)
    | inside mem enters record deeper =>
      rcases List.mem_cons.mp mem with rfl | mem
      · exact inside enters _ _ record g deeper
      · exact rest g (.inside mem enters record deeper)

theorem Value.isZero_of_isNull {v : Value} (h : v.isNull = true) : v.isZero = true := by
  cases v with
  | null => rfl
  | _ => cases h

namespace Validator

/-- A field whose tag asks something. -/
def Tagged (o : Validator) (f : Field) : Prop := o.directivesOf f ≠ []

/-- A field that is as its tag asks: filled in where that is required, and fit for the schema of the
other directives, if there are any and the field is filled in. A record in a field is filled in, and
it is looked into instead. -/
structure Meets (o : Validator) (shared : Listing Checker) (f : Field) : Prop where
  filled : isRequired (o.directivesOf f) = true → f.value.isZero = false
  fits : f.value.isNull = false → (∀ className fields, f.value ≠ .record className fields) →
    (o.directivesOf f).erase Tag.requiredKey ≠ [] →
      (validateWith shared f.value
        (tagSource ((o.directivesOf f).erase Tag.requiredKey) f.value) f.name o).1.result = .ok []

/-- Work that finds nothing exactly if something holds, whatever its validator has compiled
before. -/
def Tells (o : Validator) (x : Validating (List Finding)) (p : Prop) : Prop :=
  ∀ w, o.Continues w → ((x.outcome w).1 = .ok [] ↔ p)

variable {o : Validator} {shared : Listing Checker}
  {descend : List Field → Validating (List Finding)}

/-- What a validator answers that remembers nothing. -/
theorem result_validateWith_of_not_caching {v : Validator} (off : v.options.caching = false)
    (value : Value) (a : Source) (root : String) :
    ((validateWith shared value a root).outcome v).1 = match compileAnew .compiling a v with
      | .error e => .error e
      | .ok n =>
        (Rules.evaluate ⟨v.frame shared, value, .ofString root⟩ n).result.mapError .fault := by
  unfold validateWith compile
  rw [Work.outcome_bind,
    outcome_compileFor_of_not_remembered (remembered_of_not_caching off a.memoText?)]
  cases compileAnew .compiling a v with
  | error e => rfl
  | ok n =>
    dsimp only
    rw [remember_of_not_caching off]
    rfl

theorem result_validateWith_of_continues (off : o.options.caching = false) {w : Validator}
    (continues : o.Continues w) (value : Value) (a : Source) (root : String) :
    ((validateWith shared value a root).outcome w).1 =
      ((validateWith shared value a root).outcome o).1 := by
  rw [result_validateWith_of_not_caching off,
    result_validateWith_of_not_caching (continues.options ▸ off)]
  obtain ⟨memory, made, rfl⟩ := continues
  rfl

/-- A value that is not looked into. -/
theorem tells_check (off : o.options.caching = false) {f : Field}
    (plain : ∀ className fields, f.value ≠ .record className fields) :
    Tells o (Demand.check shared ⟨f.name, o.directivesOf f, f.value⟩) (o.Meets shared f) := by
  intro w continues
  unfold Demand.check
  dsimp only
  split
  · next missing =>
    obtain ⟨required, zero⟩ := Bool.and_eq_true_iff.mp missing
    refine iff_of_false nofun fun meets => ?_
    rw [meets.filled required] at zero
    cases zero
  · next present =>
    have filled : isRequired (o.directivesOf f) = true → f.value.isZero = false := by
      intro required
      simpa [required] using present
    split
    · next null =>
      refine iff_of_true rfl ⟨filled, fun other => ?_⟩
      rw [other] at null
      simp at null
    · split
      · next none =>
        have bare := List.isEmpty_iff.mp none
        exact iff_of_true rfl ⟨filled, fun _ _ some => absurd bare some⟩
      · next null some =>
        rw [result_validateWith_of_continues off continues]
        constructor
        · exact fun run => ⟨filled, fun _ _ _ => run⟩
        · intro meets
          apply meets.fits ?_ plain fun none => some (List.isEmpty_iff.mpr none)
          cases isNull : f.value.isNull with
          | false => rfl
          | true =>
            have required : isRequired (o.directivesOf f) = true := by simpa [isNull] using null
            have zero := Value.isZero_of_isNull isNull
            rw [filled required] at zero
            cases zero

/-- All fields that are gone into from some fields are as their tags ask. -/
def MeetsBelow (o : Validator) (shared : Listing Checker) (fields : List Field) : Prop :=
  ∀ f, Reaches o.Tagged fields f → o.Meets shared f

/-- A field tells whether it is as its tag asks, and a tagged one also what the record in it tells. -/
theorem tells_checkField (off : o.options.caching = false) (hooks : o.hooks = {})
    (recursive : o.options.recursive = true) {f : Field}
    (descends : ∀ className inner, f.value = .record className inner →
      Tells o (descend inner) (MeetsBelow o shared inner)) :
    Tells o (checkField shared descend f) (o.Meets shared f ∧ (o.Tagged f →
      ∀ className inner, f.value = .record className inner → MeetsBelow o shared inner)) := by
  intro w continues
  rw [checkField_of_no_hooks (continues.hooks.trans hooks), continues.directivesOf]
  split
  · next untagged =>
    have bare := List.isEmpty_iff.mp untagged
    refine iff_of_true rfl ⟨⟨?_, ?_⟩, fun tagged => absurd bare tagged⟩
    · rw [bare]
      exact nofun
    · rw [bare]
      exact fun _ _ some => absurd rfl some
  · next tagged =>
    have tagged : o.Tagged f := fun bare => tagged (List.isEmpty_iff.mpr bare)
    by_cases record : ∃ className inner, f.value = .record className inner
    · obtain ⟨className, inner, record⟩ := record
      have found : ((checkDirectives shared descend f.name (o.directivesOf f) f.value).outcome w).1 =
          .ok [] ↔ ((descend inner).outcome w).1 = .ok [] := by
        rw [record, checkDirectives_of_record (continues.options ▸ recursive), Work.outcome_bind]
        generalize (descend inner).outcome w = a
        obtain ⟨e | found, u⟩ := a
        · exact Iff.rfl
        · simp [nest]
      rw [found, descends className inner record w continues]
      constructor
      · intro below
        refine ⟨⟨fun _ => ?_, fun _ plain => absurd record (plain className inner)⟩, ?_⟩
        · rw [record]
          rfl
        · intro _ _ _ same
          rw [record] at same
          cases same
          exact below
      · exact fun meets => meets.2 tagged className inner record
    · have plain : ∀ className inner, f.value ≠ .record className inner :=
        fun className inner same => record ⟨className, inner, same⟩
      rw [checkDirectives_of_plain plain, tells_check off plain w continues]
      exact (and_iff_left fun _ className inner same => absurd same (plain className inner)).symm

theorem tells_checkFields (orderly : ∀ fields, Orderly (descend fields)) {f : Field}
    {fs : List Field} {p q : Prop} (first : Tells o (checkField shared descend f) p)
    (rest : Tells o (checkFields shared descend fs) q) :
    Tells o (checkFields shared descend (f :: fs)) (p ∧ q) := by
  intro w continues
  have outcome := first w continues
  have goesOn := continues.trans ((orderly_checkField shared orderly f).continues w)
  rw [outcome_checkFields_cons]
  generalize (checkField shared descend f).outcome w = a at outcome goesOn
  obtain ⟨e | _ | ⟨g, gs⟩, u⟩ := a
  · exact iff_of_false nofun fun both => nomatch outcome.mpr both.1
  · have later := rest u goesOn
    simp only [List.isEmpty_nil, Bool.not_true, Bool.and_false, Bool.false_eq_true, if_false]
    generalize (checkFields shared descend fs).outcome u = b at later
    obtain ⟨e | more, t⟩ := b
    · exact iff_of_false nofun fun both => nomatch later.mpr both.2
    · exact later.trans (and_iff_right (outcome.mp rfl)).symm
  · have fails : ¬ p := fun h => nomatch outcome.mpr h
    refine iff_of_false (fun none => ?_) fun both => fails both.1
    dsimp only at none
    split at none
    · cases none
    · generalize (checkFields shared descend fs).outcome u = b at none
      obtain ⟨e | more, t⟩ := b
      · cases none
      · cases none

theorem tells_checkRecord (shared : Listing Checker) (off : o.options.caching = false) (hooks : o.hooks = {})
    (recursive : o.options.recursive = true) {depth : Nat} {fields : List Field}
    (deep : fieldsDepth fields < depth) :
    Tells o (checkRecord shared depth fields) (MeetsBelow o shared fields) := by
  induction depth generalizing fields with
  | zero => omega
  | succ depth inside =>
    unfold checkRecord
    induction fields with
    | nil => exact fun w _ => iff_of_true rfl fun f reaches => by cases reaches <;> contradiction
    | cons f fs rest =>
      obtain ⟨name, labels, value⟩ := f
      simp only [fieldsDepth, Nat.max_lt] at deep
      have descends : ∀ className inner, value = .record className inner →
          Tells o (checkRecord shared depth inner) (MeetsBelow o shared inner) := by
        rintro className inner rfl
        exact inside (Nat.lt_of_succ_lt_succ deep.1)
      have first := tells_checkField (f := .mk name labels value) off hooks recursive descends
      intro w continues
      unfold MeetsBelow
      rw [forall_reaches_cons]
      exact tells_checkFields (orderly_checkRecord shared depth) first (rest deep.2) w continues

/-- A record is accepted exactly if all fields that are gone into are as their tags ask: its own, and
those of the records in tagged fields, and so on. Nothing that is wrong there goes unreported, and
what lies behind a field without a tag does not count. -/
theorem validateRecord_accepts_iff (off : o.options.caching = false) (hooks : o.hooks = {})
    (recursive : o.options.recursive = true) (shared : Listing Checker) (className : String)
    (fields : List Field) :
    (validateRecord shared (.record className fields) o).1.result = .ok () ↔
      ∀ f, Reaches o.Tagged fields f → o.Meets shared f := by
  have deep := Nat.lt_succ_self (fieldsDepth fields)
  have tells := tells_checkRecord shared off hooks recursive deep o (.refl o)
  have whole : (validateRecord shared (.record className fields) o).1.result =
      ((checkRecord shared (fieldsDepth fields + 1) fields >>= raiseFindings).outcome o).1 := rfl
  rw [whole, Work.outcome_bind]
  generalize (checkRecord shared (fieldsDepth fields + 1) fields).outcome o = a at tells
  refine Iff.trans ?_ tells
  obtain ⟨e | _ | ⟨f, fs⟩, u⟩ := a
  · exact iff_of_false nofun nofun
  · exact iff_of_true rfl rfl
  · exact iff_of_false nofun nofun

/-- An account at an address that must name a city. -/
def cityAccount (labels : List (String × String)) (city : String) : List Field :=
  [.mk "address" labels
    (.record "Address" [.mk "city" [("validate", "required")] (.string city)])]

/-- Behind a tagged field an address without a city is not accepted, and one with a city is. -/
theorem validateRecord_accepts_iff_cityAccount :
    let o : Validator := { options := { recursive := true } }
    let tag := [("validate", "required")]
    (validateRecord [] (.record "Account" (cityAccount tag "Ys")) o).1.result = .ok () ∧
    (∀ f, Reaches o.Tagged (cityAccount tag "Ys") f → o.Meets [] f) ∧
    (validateRecord [] (.record "Account" (cityAccount tag "")) o).1.result =
      .error (.findings [fieldRequired "address.city"]) ∧
    ¬ ∀ f, Reaches o.Tagged (cityAccount tag "") f → o.Meets [] f := by
  intro o tag
  have accepted :
      (validateRecord [] (.record "Account" (cityAccount tag "Ys")) o).1.result = .ok () := rfl
  have refused : (validateRecord [] (.record "Account" (cityAccount tag "")) o).1.result =
      .error (.findings [fieldRequired "address.city"]) := rfl
  have reached := (validateRecord_accepts_iff (o := o) rfl rfl rfl [] "Account" _).mp accepted
  refine ⟨accepted, reached, refused, fun meets => ?_⟩
  have wrong := (validateRecord_accepts_iff rfl rfl rfl [] "Account" _).mpr meets
  rw [refused] at wrong
  cases wrong

/-- Behind a field without a tag nothing is looked at, though the record there asks for a city. -/
theorem validateRecord_misses_untagged :
    let o : Validator := { options := { recursive := true } }
    let city : Field := .mk "city" [("validate", "required")] (.string "")
    (validateRecord [] (.record "Account" (cityAccount [] "")) o).1.result = .ok () ∧
    Reaches (fun _ => True) (cityAccount [] "") city ∧ o.Tagged city ∧ ¬ o.Meets [] city := by
  intro o city
  refine ⟨rfl, .inside (.head _) trivial rfl (.own (.head _)), nofun, fun meets => ?_⟩
  have filled := meets.filled rfl
  cases filled

end Validator

end Conform
