import Conform.Tag
import Conform.Validator.Basic
import Conform.Value.Truth

/-!
Records: each tagged field is validated against the schema that its tag makes for its value. A
nested record is descended into where the options say so, and its findings move below the field.
-/
namespace Conform

mutual

/-- How deeply records are nested in one another, through fields alone. -/
def Value.recordDepth : Value → Nat
  | .record _ fs => fieldsDepth fs + 1
  | _ => 0

def fieldsDepth : List Field → Nat
  | [] => 0
  | .mk _ _ v :: fs => max v.recordDepth (fieldsDepth fs)

end

namespace Validator

def fieldRequired (path : String) : Finding :=
  { path := .ofString path, reason := .fieldRequired, tag := Tag.requiredKey }

def fieldRejected (path : String) (value : Value) : Finding :=
  { path := .ofString path, reason := .fieldRejected, tag := "custom", value }

/-- Findings of a nested record, moved below the field that holds it. -/
def nest (path : String) (found : List Finding) : List Finding :=
  found.map fun f => { f with path := f.path.under path }

def isRequired (directives : Listing Value) : Bool :=
  ((directives.get? Tag.requiredKey).getD .null).isTruthy

def tagSource (directives : Listing Value) (value : Value) : Source :=
  .value (.object .mutable (Tag.toSchema directives value))

/-- The directives of a field, from its tag or from the hook for tags. -/
def directivesOf (v : Validator) (f : Field) : Listing Value :=
  let tag := match v.hooks.tagOf with
    | some tagOf => tagOf f
    | none => Listing.get? v.options.tagName f.labels
  (tag.map Tag.parse).getD []

/-- A value that is accepted, against its directives; `descend` is for a record found there. -/
def checkDirectives (shared : Listing Checker) (descend : List Field → Validating (List Finding))
    (path : String) (directives : Listing Value) (value : Value) : Validating (List Finding) := do
  let v ← .get
  let required := isRequired directives
  let rest := directives.erase Tag.requiredKey
  if required && value.isZero then return [fieldRequired path]
  else if !required && value.isNull then return []
  else match v.options.recursive, value with
    | true, .record _ fields => do
      let found ← descend fields
      return nest path found
    | _, _ =>
      if rest.isEmpty then return []
      else validateWith shared value (tagSource rest value) path

def checkField (shared : Listing Checker) (descend : List Field → Validating (List Finding))
    (f : Field) : Validating (List Finding) := do
  let v ← .get
  let directives := v.directivesOf f
  if directives.isEmpty then return []
  else
    let value := (v.hooks.convert.getD id) f.value
    let accepted := match v.hooks.accept with
      | some accept => accept value f.name
      | none => .ok true
    match accepted with
    | .error text => fault (.hookFailed f.name text)
    | .ok false => return [fieldRejected f.name value]
    | .ok true => checkDirectives shared descend f.name directives value

/-- Fields in order; asked to stop, none after the first that finds something. -/
def checkFields (shared : Listing Checker) (descend : List Field → Validating (List Finding)) :
    List Field → Validating (List Finding)
  | [] => pure []
  | f :: fs => do
    let found ← checkField shared descend f
    let v ← .get
    if v.options.stopAtFirst && !found.isEmpty then return found
    else do
      let more ← checkFields shared descend fs
      return found ++ more

/-- The fields of a record, with those of records inside to the given depth. -/
def checkRecord (shared : Listing Checker) : Nat → List Field → Validating (List Finding)
  | 0, _ => fault .recordTooDeep
  | depth + 1, fields => checkFields shared (checkRecord shared depth) fields

def raiseFindings (found : List Finding) : Validating Unit :=
  if found.isEmpty then pure () else .fail (.findings found)

/-- Validates a record, with those inside it to the given depth; findings, if any, are a failure. -/
def validateRecordTo (shared : Listing Checker) (depth : Nat) (value : Value) :
    Validating Unit := do
  match value with
  | .record _ fields =>
    let found ← checkRecord shared depth fields
    raiseFindings found
  | v => fault (.input (.notARecord v.className))

/-- Validates a record as deep as its fields go, which is enough unless the hook for values puts
records in the place of others. -/
def validateRecord (shared : Listing Checker) (value : Value) : Validating Unit :=
  validateRecordTo shared value.recordDepth value

/-- The path of a variable on its own. -/
def variableName : String := "var"

/-- Validates a value on its own against a tag. -/
def validateVariable (shared : Listing Checker) (value : Value) (tag : String) :
    Validating Unit := do
  let directives := Tag.parse tag
  let rest := directives.erase Tag.requiredKey
  if isRequired directives && value.isZero then raiseFindings [fieldRequired variableName]
  else if rest.isEmpty then return ()
  else
    let found ← validateWith shared value (tagSource rest value) variableName
    raiseFindings found

end Validator

end Conform
