import Conform.Proofs.Path
import Conform.Proofs.Rules.Reroot
import Conform.Proofs.Validator.Demand

/-! Records in one level. What the records inside a record find is moved below the field that holds
them, level by level; it is what their fields find where they stand in the whole, one after the
other. -/
namespace Conform

/-- A finding as it is reported: of its path only the text is shown. -/
def Finding.shown (f : Finding) : Finding := { f with path := .ofString f.path.text }

/-- A root with a name in it is put below another path as a whole. -/
theorem Path.text_reroot_join {p : Path} (filled : p.root ≠ "") (above : String) :
    (p.reroot (join above p.root)).text = join above p.text :=
  foldl_stepText_join filled above p.steps

mutual

/-- Whether the fields of a record, and of the records in them, all have names. -/
def Value.named : Value → Bool
  | .record _ fields => fieldsNamed fields
  | _ => true

def fieldsNamed : List Field → Bool
  | [] => true
  | .mk name _ value :: fs => !name.isEmpty && value.named && fieldsNamed fs

end

namespace Validator

mutual

/-- What directives ask of a value at a path. A record asks what its fields do: it is never missing
where one is required, and it has no schema of its own. -/
def demandsOf (v : Validator) (path : String) (directives : Listing Value) : Value → List Demand
  | .record _ fields => fieldDemands v path fields
  | value => [⟨path, directives, value⟩]

/-- What the tags of fields ask below a path, in order, for those that ask anything. -/
def fieldDemands (v : Validator) (path : String) : List Field → List Demand
  | [] => []
  | .mk name labels value :: fs =>
    let directives := v.directivesOf (.mk name labels value)
    (if directives.isEmpty then [] else demandsOf v (Path.join path name) directives value) ++
      fieldDemands v path fs

end

/-- What one piece of work finds, and after it another. -/
def both (x y : Validating (List Finding)) : Validating (List Finding) := do
  let found ← x
  let more ← y
  return found ++ more

def checkDemands (shared : Listing Checker) : List Demand → Validating (List Finding)
  | [] => pure []
  | d :: ds => both (d.check shared) (checkDemands shared ds)

theorem nest_empty (found : List Finding) : nest "" found = found.map Finding.shown := rfl

theorem nest_append (path : String) (xs ys : List Finding) :
    nest path (xs ++ ys) = nest path xs ++ nest path ys := List.map_append

/-- Moved below a field and then further, findings are moved below the field's path. -/
theorem nest_nest {name : String} (filled : name ≠ "") (path : String) (found : List Finding) :
    nest path (nest name found) = nest (Path.join path name) found := by
  unfold nest
  rw [List.map_map]
  apply List.map_congr_left
  intro f _
  simp only [Function.comp, Path.under, Path.text_ofString, Path.join_join filled]

/-- How work below a path comes out, and beside it the flat form of it: findings are the same once
moved there, and both leave the same validator, or both fail hard. -/
inductive Flattened (path : String) :
    Except Failure (List Finding) × Validator → Except Failure (List Finding) × Validator → Prop
  | ok {xs ys : List Finding} (w : Validator) (same : nest path xs = ys.map Finding.shown) :
    Flattened path (.ok xs, w) (.ok ys, w)
  | error {e d : Failure} (hard : e.Hard) (hard' : d.Hard) (w w' : Validator) :
    Flattened path (.error e, w) (.error d, w')

/-- Work and the flat form of it, in the hands of any validator that goes on from a given one. -/
def Flattens (o : Validator) (path : String) (x y : Validating (List Finding)) : Prop :=
  ∀ w, o.Continues w → w.HasRules Rule.Parametric → Flattened path (x.outcome w) (y.outcome w)

section

variable {o : Validator} {path name : String} {shared : Listing Checker}
  {descend : List Field → Validating (List Finding)}

theorem flattens_nil : Flattens o path (pure []) (pure []) := fun w _ _ => .ok w rfl

/-- What a run finds below the name of a field, moved, is what it finds below the whole path. -/
theorem flattens_validate {value : Value} {n : Node} (filled : name ≠ "")
    (reroots : Rules.Reroots n) :
    Flattens o path (validate shared value n name)
      (validate shared value n (Path.join path name)) := by
  intro w _ _
  rw [outcome_validate, outcome_validate]
  have moved := reroots ⟨w.frame shared, value, .ofString name⟩ (Path.join path name)
  change Rules.NodeMirrors _ _
    (Rules.evaluate ⟨w.frame shared, value, .ofString (Path.join path name)⟩ n).result at moved
  generalize run : (Rules.evaluate ⟨w.frame shared, value, .ofString name⟩ n).result = x at moved
  generalize (Rules.evaluate ⟨w.frame shared, value, .ofString (Path.join path name)⟩ n).result = y
    at moved
  cases moved with
  | @error e d _ =>
    have hard : (Failure.fault e).Hard := trivial
    have hard' : (Failure.fault d).Hard := trivial
    exact .error hard hard' w w
  | @ok found _ same =>
    apply Flattened.ok w
    rw [same, List.map_map]
    apply List.map_congr_left
    intro f hf
    have own := Rules.root_of_reroots reroots run f hf
    have text : (f.path.reroot (Path.join path name)).text = Path.join path f.path.text := by
      rw [← own]
      apply Path.text_reroot_join
      rwa [own]
    simp only [Function.comp, Finding.shown, Finding.reroot, text, Path.under]

theorem flattens_validateWith {value : Value} {a : Source} (filled : name ≠ "") :
    Flattens o path (validateWith shared value a name)
      (validateWith shared value a (Path.join path name)) := by
  intro w continues rules
  have orderly := orderly_compileFor .compiling a
  have goesOn := continues.trans (orderly.continues w)
  have kept := orderly.hasRules w _ rules
  unfold validateWith compile
  cases outcome : (compileFor .compiling a).outcome w with
  | mk result u =>
    rw [outcome] at goesOn kept
    cases result with
    | error e =>
      rw [Work.outcome_bind_of_error outcome, Work.outcome_bind_of_error outcome]
      have hard : e.Hard := orderly.hard w e (congrArg Prod.fst outcome)
      exact .error hard hard u u
    | ok c =>
      rw [Work.outcome_bind_of_ok outcome, Work.outcome_bind_of_ok outcome]
      have compiled := compiledFrom_of_compileFor rules outcome
      exact flattens_validate filled (Rules.reroots_of_parametric compiled.every_rule) u goesOn kept

theorem flattens_check {directives : Listing Value} {value : Value} (filled : name ≠ "") :
    Flattens o path (Demand.check shared ⟨name, directives, value⟩)
      (Demand.check shared ⟨Path.join path name, directives, value⟩) := by
  unfold Demand.check
  dsimp only
  split
  · exact fun w _ _ => .ok w rfl
  · split
    · exact flattens_nil
    · split
      · exact flattens_nil
      · exact flattens_validateWith filled

theorem outcome_both (x y : Validating (List Finding)) (w : Validator) :
    (both x y).outcome w = match x.outcome w with
      | (.error e, u) => (.error e, u)
      | (.ok found, u) => match y.outcome u with
        | (.error e, t) => (.error e, t)
        | (.ok more, t) => (.ok (found ++ more), t) := by
  unfold both
  rw [Work.outcome_bind]
  generalize x.outcome w = a
  obtain ⟨e | found, u⟩ := a
  · rfl
  · dsimp only
    rw [Work.outcome_bind]
    generalize y.outcome u = b
    obtain ⟨e | more, t⟩ := b
    · rfl
    · rfl

theorem outcome_checkDemands_append (ds es : List Demand) (w : Validator) :
    (checkDemands shared (ds ++ es)).outcome w =
      (both (checkDemands shared ds) (checkDemands shared es)).outcome w := by
  rw [outcome_both]
  induction ds generalizing w with
  | nil =>
    change (checkDemands shared es).outcome w = match (checkDemands shared es).outcome w with
      | (.error e, t) => (.error e, t)
      | (.ok more, t) => (.ok more, t)
    split
    · assumption
    · assumption
  | cons d ds ih =>
    rw [List.cons_append, checkDemands, checkDemands, outcome_both, outcome_both]
    generalize (d.check shared).outcome w = a
    obtain ⟨e | found, u⟩ := a
    · rfl
    · dsimp only
      rw [ih]
      generalize (checkDemands shared ds).outcome u = b
      obtain ⟨e | more, t⟩ := b
      · rfl
      · dsimp only
        generalize (checkDemands shared es).outcome t = c
        obtain ⟨e | later, r⟩ := c
        · rfl
        · simp only [List.append_assoc]

/-- Asked for all findings, the loop over the fields goes on after each of them. -/
theorem outcome_checkFields_both (orderly : ∀ fields, Orderly (descend fields)) (f : Field)
    (fs : List Field) {w : Validator} (exhaustive : w.options.stopAtFirst = false) :
    (checkFields shared descend (f :: fs)).outcome w =
      (both (checkField shared descend f) (checkFields shared descend fs)).outcome w := by
  have kept := ((orderly_checkField shared orderly f).continues w).options
  rw [outcome_checkFields_cons, outcome_both]
  generalize (checkField shared descend f).outcome w = a at kept
  obtain ⟨e | found, u⟩ := a
  · rfl
  · have goesOn : u.options.stopAtFirst = false := by rw [kept, exhaustive]
    have more : ¬ (u.options.stopAtFirst && !found.isEmpty) = true := by simp [goesOn]
    exact if_neg more

/-- Two pieces of work in a row. -/
theorem Flattens.both {x y r t : Validating (List Finding)} (orderly : Orderly x)
    (first : Flattens o path x y) (next : Flattens o path r t) :
    Flattens o path (both x r) (Validator.both y t) := by
  intro w continues rules
  have outcomes := first w continues rules
  have goesOn := continues.trans (orderly.continues w)
  have kept := orderly.hasRules w _ rules
  rw [outcome_both, outcome_both]
  generalize x.outcome w = a, y.outcome w = b at outcomes goesOn kept
  cases outcomes with
  | error hard hard' u u' => exact .error hard hard' u u'
  | ok u same =>
    have later := next u goesOn kept
    dsimp only
    generalize r.outcome u = c, t.outcome u = d at later
    cases later with
    | error hard hard' v v' => exact .error hard hard' v v'
    | ok v same' =>
      apply Flattened.ok v
      rw [nest_append, same, same', List.map_append]

/-- Work below the name of a field, which is below a path itself. -/
theorem Flattens.nest {x y : Validating (List Finding)} (filled : name ≠ "")
    (h : Flattens o (Path.join path name) x y) :
    Flattens o path (x >>= fun found => pure (nest name found)) y := by
  intro w continues rules
  have outcomes := h w continues rules
  rw [Work.outcome_bind]
  generalize x.outcome w = a, y.outcome w = b at outcomes
  cases outcomes with
  | error hard hard' u u' => exact .error hard hard' u u'
  | ok u same => exact .ok u ((nest_nest filled path _).trans same)

theorem outcome_checkDemands_single (d : Demand) (w : Validator) :
    (checkDemands shared [d]).outcome w = (d.check shared).outcome w := by
  rw [checkDemands, outcome_both]
  generalize (d.check shared).outcome w = a
  obtain ⟨e | found, u⟩ := a
  · rfl
  · simp [checkDemands]

/-- A field, and beside it what it asks for. -/
theorem flattens_checkField (hooks : o.hooks = {}) (recursive : o.options.recursive = true)
    (labels : List (String × String)) {value : Value} (filled : name ≠ "")
    (descends : ∀ className inner, value = .record className inner →
      Flattens o (Path.join path name) (descend inner)
        (checkDemands shared (fieldDemands o (Path.join path name) inner))) :
    Flattens o path (checkField shared descend (.mk name labels value))
      (checkDemands shared
        (if (o.directivesOf (.mk name labels value)).isEmpty then []
        else demandsOf o (Path.join path name) (o.directivesOf (.mk name labels value)) value)) := by
  intro w continues rules
  rw [checkField_of_no_hooks (continues.hooks.trans hooks), continues.directivesOf]
  split
  · exact .ok w rfl
  · change Flattened path ((checkDirectives shared descend name _ value).outcome w) _
    have plain (single : demandsOf o (Path.join path name) (o.directivesOf (.mk name labels value))
        value = [⟨Path.join path name, o.directivesOf (.mk name labels value), value⟩])
        (h : ∀ className fields, value ≠ .record className fields) : Flattened path
          ((checkDirectives shared descend name
            (o.directivesOf (.mk name labels value)) value).outcome w)
          ((checkDemands shared (demandsOf o (Path.join path name)
            (o.directivesOf (.mk name labels value)) value)).outcome w) := by
      rw [single, checkDirectives_of_plain h, outcome_checkDemands_single]
      exact flattens_check filled w continues rules
    cases value with
    | record className inner =>
      rw [checkDirectives_of_record (continues.options ▸ recursive)]
      exact (descends className inner rfl).nest filled w continues rules
    | _ => exact plain rfl nofun

/-- The fields of a record, however deep, and beside them what they ask for. -/
theorem flattens_checkRecord (shared : Listing Checker) (path : String) (hooks : o.hooks = {})
    (recursive : o.options.recursive = true) (exhaustive : o.options.stopAtFirst = false)
    {depth : Nat} {fields : List Field} (deep : fieldsDepth fields < depth)
    (filled : fieldsNamed fields = true) :
    Flattens o path (checkRecord shared depth fields)
      (checkDemands shared (fieldDemands o path fields)) := by
  induction depth generalizing path fields with
  | zero => omega
  | succ depth inside =>
    have orderly := orderly_checkRecord shared depth
    unfold checkRecord
    induction fields with
    | nil => exact flattens_nil
    | cons f fs rest =>
      obtain ⟨name, labels, value⟩ := f
      simp only [fieldsDepth, Nat.max_lt] at deep
      simp only [fieldsNamed, Bool.and_eq_true, Bool.not_eq_true', String.isEmpty_eq_false_iff]
        at filled
      have descends : ∀ className inner, value = .record className inner →
          Flattens o (Path.join path name) (checkRecord shared depth inner)
            (checkDemands shared (fieldDemands o (Path.join path name) inner)) := by
        rintro className inner rfl
        apply inside
        · exact Nat.lt_of_succ_lt_succ deep.1
        · exact filled.1.2
      have first := flattens_checkField hooks recursive labels filled.1.1 descends
      intro w continues rules
      rw [outcome_checkFields_both orderly _ _ (continues.options ▸ exhaustive), fieldDemands,
        outcome_checkDemands_append]
      exact first.both (orderly_checkField shared orderly _) (rest deep.2 filled.2) w continues rules

end

/-- Validating a record is checking in a row what its tags ask, each demand where it stands in the
whole. With records looked into, all findings asked for and no hooks, the record is accepted where
the demands find nothing, and otherwise fails by what they find, in their order and as it is
reported; it fails hard where they do. -/
theorem validateRecord_flattened {o : Validator} (hooks : o.hooks = {})
    (recursive : o.options.recursive = true) (exhaustive : o.options.stopAtFirst = false)
    (rules : o.HasRules Rule.Parametric) (shared : Listing Checker) (className : String)
    {fields : List Field} (filled : fieldsNamed fields = true) :
    let flat := (checkDemands shared (fieldDemands o "" fields) o).1.result
    let whole := (validateRecord shared (.record className fields) o).1.result
    (flat = .ok [] → whole = .ok ()) ∧
    (∀ found, found ≠ [] → flat = .ok found → ∃ raised, whole = .error (.findings raised) ∧
      raised.map Finding.shown = found.map Finding.shown) ∧
    ∀ e, flat = .error e → ∃ d : Failure, d.Hard ∧ whole = .error d := by
  intro flat whole
  have outcomes := flattens_checkRecord shared "" hooks recursive exhaustive
    (Nat.lt_succ_self _) filled o (.refl o) rules
  have flatOutcome : flat = ((checkDemands shared (fieldDemands o "" fields)).outcome o).1 := rfl
  have wholeOutcome : whole =
      ((checkRecord shared (fieldsDepth fields + 1) fields >>= raiseFindings).outcome o).1 := rfl
  rw [Work.outcome_bind] at wholeOutcome
  rw [flatOutcome, wholeOutcome]
  generalize (checkRecord shared (fieldsDepth fields + 1) fields).outcome o = a,
    (checkDemands shared (fieldDemands o "" fields)).outcome o = b at outcomes
  cases outcomes with
  | error hard hard' u u' => exact ⟨nofun, nofun, fun _ _ => ⟨_, hard, rfl⟩⟩
  | @ok xs ys u same =>
    rw [nest_empty] at same
    refine ⟨fun none => ?_, fun found filled some => ?_, nofun⟩
    · obtain rfl := Except.ok.inj none
      obtain rfl : xs = [] := List.map_eq_nil_iff.mp same
      rfl
    · obtain rfl := Except.ok.inj some
      cases xs with
      | nil => exact absurd (List.map_eq_nil_iff.mp same.symm) filled
      | cons f fs => exact ⟨f :: fs, rfl, same⟩

/-- A short name, at an address without a city in a country with a short code. -/
def shortAccount : List Field :=
  [.mk "name" [("validate", "required,min=3")] (.string "Al"),
    .mk "address" [("validate", "required")] (.record "Address"
      [.mk "city" [("validate", "required")] (.string ""),
        .mk "country" [("validate", "required")] (.record "Country"
          [.mk "code" [("validate", "min=2")] (.string "N")])])]

/-- What is found two records down is found at the path through both. -/
theorem validateRecord_flattened_shortAccount :
    let o : Validator := { options := { recursive := true } }
    let short (path value : String) (limit : Int) : Finding :=
      { path := .ofString path, reason := .beyondLimit .minLength limit value.length,
        tag := "minLength", value := .string value, param := some (toString limit) }
    let found := [short "name" "Al" 3, fieldRequired "address.city",
      short "address.country.code" "N" 2]
    fieldsNamed shortAccount = true ∧ o.HasRules Rule.Parametric ∧
    (checkDemands [] (fieldDemands o "" shortAccount) o).1.result = .ok found ∧
    ∃ raised, (validateRecord [] (.record "Account" shortAccount) o).1.result =
      .error (.findings raised) ∧ raised.map Finding.shown = found.map Finding.shown := by
  intro o short found
  have filled : fieldsNamed shortAccount = true := by decide
  have rules : o.HasRules Rule.Parametric := hasRules_of_builtins rfl rfl fun _ _ => trivial
  have demands : fieldDemands o "" shortAccount =
      [⟨"name", [("required", .bool true), ("min", .ofInt 3)], .string "Al"⟩,
        ⟨"address.city", [("required", .bool true)], .string ""⟩,
        ⟨"address.country.code", [("min", .ofInt 2)], .string "N"⟩] := rfl
  have run : (checkDemands [] (fieldDemands o "" shortAccount) o).1.result = .ok found := by
    rw [demands]
    rfl
  have flattened := validateRecord_flattened (o := o) rfl rfl rfl rules [] "Account" filled
  exact ⟨filled, rules, run, flattened.2.1 found nofun run⟩

end Validator

end Conform
