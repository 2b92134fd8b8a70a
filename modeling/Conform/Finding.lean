import Conform.Value.Basic
import Conform.Path
import Conform.Keyword

/-!
Findings: what a value fails, where, and why. A reason keeps its parts, so a wrapped reason is still
known for what it is; its words are chosen in one place.
-/
namespace Conform

inductive Reason
  | mistyped (actual expected : String)
  | typedAsNone (expected : List String)
  | notANumber
  | notAString
  | notAnArray
  | badBound (b : Bound)
  | outOfBound (b : Bound) (limit : String)
  | badDivisor
  | indivisibleKind
  | notMultiple (number divisor : String)
  | badLimit (l : Limit)
  | beyondLimit (l : Limit) (limit : Int) (size : Nat)
  | notAnObject (l : Limit)
  | badPattern
  | unusablePattern (text : String)
  | patternMismatch (pattern : String)
  | badUniqueness
  | duplicates
  | notListed (allowed : String)
  | badFormat
  | formatOfNonString
  | unknownFormat (name : String)
  | formatMismatch (name : String)
  | unusableNamePattern (pattern : String)
  | unknownField (name : String)
  | additional (name tag : String) (inner : Reason)
  | dependency (name tag : String) (inner : Reason)
  | dependencyMissing (name required : String)
  | badDependency (name : String)
  | requiredOfNonObject
  | missing (name : String)
  | emptyCombinator (c : Combinator)
  | conjunct (index : Nat) (tag : String) (inner : Reason)
  | noneHolds (c : Combinator)
  | severalHold
  | idleNegation
  | negated
  | clause (c : Clause) (tag : String) (inner : Reason)
  | rejected (keyword : String)
  | fieldRequired
  | fieldRejected
  | custom (text : String)

def Bound.complaint : Bound → String
  | .minimum => "less than minimum"
  | .maximum => "greater than maximum"
  | .exclusiveMinimum => "less than or equal to exclusive minimum"
  | .exclusiveMaximum => "greater than or equal to exclusive maximum"

def Limit.complaint (l : Limit) (limit : Int) (size : Nat) : String :=
  match l with
  | .minLength => s!"length less than minimum {limit}"
  | .maxLength => s!"length greater than maximum {limit}"
  | .minItems => s!"fewer items than minimum {limit}"
  | .maxItems => s!"more items than maximum {limit}"
  | .minProperties => s!"object has {size} properties, which is less than minProperties {limit}"
  | .maxProperties => s!"object has {size} properties, which is more than maxProperties {limit}"

def Reason.message : Reason → String
  | .mistyped actual expected => s!"value is of type {actual}, expected {expected}"
  | .typedAsNone expected =>
    "value type does not match any of the expected types: " ++ ", ".intercalate expected
  | .notANumber => "must be a number"
  | .notAString => "must be a string"
  | .notAnArray => "must be an array"
  | .badBound b => b.name ++ " must be a number"
  | .outOfBound b limit => b.complaint ++ " " ++ limit
  | .badDivisor => "multipleOf must be a positive number"
  | .indivisibleKind => "multipleOf can only be applied to numbers"
  | .notMultiple number divisor => s!"value {number} is not a multiple of {divisor}"
  | .badLimit l => l.name ++ " must be a non-negative integer"
  | .beyondLimit l limit size => l.complaint limit size
  | .notAnObject l => l.name ++ " can only be applied to objects"
  | .badPattern => "pattern must be a string"
  | .unusablePattern text => "invalid pattern: " ++ text
  | .patternMismatch pattern => "does not match pattern " ++ pattern
  | .badUniqueness => "uniqueItems must be a boolean"
  | .duplicates => "contains duplicate items"
  | .notListed allowed => "value must be one of: " ++ allowed
  | .badFormat => "format must be a string"
  | .formatOfNonString => "value must be a string"
  | .unknownFormat name => "unknown format: " ++ name
  | .formatMismatch name => s!"invalid {name} format"
  | .unusableNamePattern pattern => "invalid pattern in patternProperties: " ++ pattern
  | .unknownField name => s!"unknown field '{name}': additional properties are not allowed"
  | .additional name tag inner =>
    s!"additional property '{name}' failed validation for keyword '{tag}': " ++ inner.message
  | .dependency name tag inner =>
    s!"dependency validation failed for property '{name}' with keyword '{tag}': " ++ inner.message
  | .dependencyMissing name required =>
    s!"property '{name}' depends on '{required}', but it is missing"
  | .badDependency name => s!"dependency for property '{name}' must be an array or an object"
  | .requiredOfNonObject => "value must be an object for required validation"
  | .missing name => s!"required property '{name}' is missing"
  | .emptyCombinator c => c.name ++ " cannot be empty"
  | .conjunct i tag inner =>
    s!"failed to validate against schema at allOf[{i}] for keyword '{tag}': " ++ inner.message
  | .noneHolds c => "value does not match any schema in " ++ c.name
  | .severalHold => "value matches more than one schema in oneOf"
  | .idleNegation => "not schema must contain validation keywords"
  | .negated => "value must not validate against the schema in not"
  | .clause c tag inner =>
    s!"validation failed against {c.name} schema for keyword '{tag}': " ++ inner.message
  | .rejected keyword => "validation failed for keyword " ++ keyword
  | .fieldRequired => "field is required"
  | .fieldRejected => "custom validation failed"
  | .custom text => text

/-- A failed check. `value` is null where none is shown. -/
structure Finding where
  path : Path
  reason : Reason
  tag : String
  value : Value := .null
  param : Option String := none

namespace Finding

def message (f : Finding) : String := f.reason.message

def text (f : Finding) : String := s!"validation error: {f.message} (path: {f.path.text})"

end Finding

end Conform
