import Conform.Text.Encoding
import Conform.Json.Reader
import Conform.Pattern.Problem
import Conform.Finding

/-!
Everything that keeps a call from an answer, by cause. Each cause has its words in one place.
-/
namespace Conform

/-- Why something is no schema document. -/
inductive Unreadable
  | undecodable (e : Text.DecodeError)
  | misread (m : Json.Misread) (text : List Char)
  | unsupported (className : String)
  | notAnObject (jsonType : String)

def Unreadable.message : Unreadable → String
  | .undecodable e => "failed to parse schema: " ++ e.message
  | .misread m text => "failed to parse schema: " ++ m.message text
  | .unsupported className =>
    s!"Unsupported schema payload type {className}; expected str or Mapping"
  | .notAnObject jsonType =>
    "failed to parse schema: top-level value must be an object, got " ++ jsonType

/-- Where a nested schema stands in the schema around it. -/
inductive Place
  | property (name : String)
  | patternProperty (pattern : String)
  | additional
  | items
  | item (index : Nat)
  | branch (c : Combinator) (index : Nat)
  | negation
  | clause (c : Clause)
  | dependency (name : String)

/-- The words before the cause of a failure at a place. -/
def Place.lead : Place → String
  | .property name => s!"failed to compile property '{name}': "
  | .patternProperty pattern => s!"failed to compile pattern property '{pattern}': "
  | .additional => "failed to compile additionalProperties: "
  | .items => "failed to compile items: "
  | .item i => s!"failed to compile items[{i}]: "
  | .branch c i => s!"failed to compile {c.name}[{i}]: "
  | .negation => "failed to compile not: "
  | .clause c => s!"failed to compile {c.name}: "
  | .dependency name => s!"invalid dependency '{name}': "

/-- Why a schema document cannot be compiled. -/
inductive SchemaFault
  | absent
  | notASchema (className : String)
  | reference
  | unknownKeyword (key : String)
  | unknownType (name : String)
  | typeNotAName (literal : String)
  | typeShape (literal : String)
  /-- The keyword wants an object. -/
  | objectWanted (keyword className : String)
  | arrayWanted (keyword className : String)
  | numberWanted (keyword className : String)
  | integerWanted (keyword className : String)
  | propertyShape (name className : String)
  | patternPropertyShape (pattern : String)
  | badPatternProperty (pattern rejection : String)
  | additionalShape
  | itemsShape (className : String)
  | itemShape (index : Nat)
  | branchShape (c : Combinator) (index : Nat)
  | emptyCombinator (c : Combinator)
  | dependencyNames (name : String)
  | dependencyShape (name : String)
  | requiredName (index : Nat) (className : String)
  | patternShape (className : String)
  | badPattern (pattern rejection : String)
  | uniquenessShape (className : String)
  | negativeCount (keyword : String) (count : Int)
  | emptyNegation
  | idleNegation
  | within (place : Place) (cause : SchemaFault)

def SchemaFault.message : SchemaFault → String
  | .absent => "schema raw data is nil"
  | .notASchema className => "schema must be an object, got " ++ className
  | .reference => s!"unsupported keyword '{referenceKey}': schema references are not resolved"
  | .unknownKeyword key => s!"unknown keyword '{key}' in strict mode"
  | .unknownType name => "invalid type value: " ++ name
  | .typeNotAName literal => "type array contains non-string value: " ++ literal
  | .typeShape literal => "invalid type value: " ++ literal
  | .objectWanted keyword className => s!"{keyword} must be an object, got {className}"
  | .arrayWanted keyword className => s!"{keyword} must be an array, got {className}"
  | .numberWanted keyword className => s!"invalid {keyword} value: expected number, got {className}"
  | .integerWanted keyword className =>
    s!"invalid {keyword} value: expected integer, got {className}"
  | .propertyShape name className => s!"property '{name}' must be an object, got {className}"
  | .patternPropertyShape pattern => s!"pattern property '{pattern}' must be an object"
  | .badPatternProperty pattern rejection =>
    s!"invalid pattern in patternProperties: {pattern} - {rejection}"
  | .additionalShape => "invalid additionalProperties value"
  | .itemsShape className => "invalid items value: " ++ className
  | .itemShape i => s!"items[{i}] must be an object"
  | .branchShape c i => s!"{c.name}[{i}] must be an object"
  | .emptyCombinator c => c.name ++ " cannot be empty"
  | .dependencyNames name => s!"dependency '{name}' contains non-string field"
  | .dependencyShape name => s!"invalid dependency '{name}': must be an array or an object"
  | .requiredName i className => s!"required[{i}] must be a string, got {className}"
  | .patternShape className => "invalid pattern value: expected string, got " ++ className
  | .badPattern pattern rejection => s!"invalid pattern: {pattern} - {rejection}"
  | .uniquenessShape className => "invalid uniqueItems value: expected boolean, got " ++ className
  | .negativeCount keyword count =>
    s!"invalid {keyword} value: must be non-negative, got {count}"
  | .emptyNegation => "not schema cannot be empty"
  | .idleNegation => "not schema must contain validation keywords"
  | .within place cause => place.lead ++ cause.message

/-- A failure nobody foresaw, known by its class and its text. -/
structure Breakdown where
  className : String
  text : String
  deriving DecidableEq

/-- An unusable pattern outside the places where it is foreseen. -/
def Breakdown.ofRejection (pattern : String) (r : Pattern.Rejection) : Breakdown :=
  { className := match r with
      | .malformed .. => "error"
      | .repetitionTooLarge => "OverflowError"
      | .conflictingAlphabets => "ValueError"
    text := r.message pattern }

/-- The three registries. -/
inductive Register
  | rules
  | comparators
  | formats
  deriving DecidableEq

/-- Why an entry is refused. -/
inductive EntryFault
  | emptyName (r : Register)
  | missingFunction (r : Register)
  | taken (r : Register) (name : String)
  | builtinTaken (r : Register) (name : String)

def Register.noun : Register → String
  | .rules => "validator"
  | .comparators => "comparator"
  | .formats => "format"

def Register.takenText (r : Register) (name : String) : String :=
  s!"{r.noun} {name} already registered"

def EntryFault.message : EntryFault → String
  | .emptyName r => r.noun ++ " name cannot be empty"
  | .missingFunction .formats => "format checker cannot be nil"
  | .missingFunction r => r.noun ++ " function cannot be nil"
  | .taken r name => r.takenText name
  | .builtinTaken .rules name =>
    s!"failed to register builtin rule {name}: " ++ Register.rules.takenText name
  | .builtinTaken r name => s!"failed to register {r.noun} {name}: " ++ r.takenText name

/-- Why something cannot be validated at all. -/
inductive InputFault
  | notText (className : String)
  | undecodable (e : Text.DecodeError)
  | misread (m : Json.Misread) (text : List Char)
  | notARecord (className : String)
  | custom (text : String)

def InputFault.message : InputFault → String
  | .notText className => "invalid JSON data: expected str or bytes, got " ++ className
  | .undecodable e => "invalid JSON data: " ++ e.message
  | .misread m text => "invalid JSON data: " ++ m.message text
  | .notARecord className =>
    "input must be a record (dataclass instance or pydantic model), got " ++ className
  | .custom text => text

/-- What a schema was being read for. -/
inductive Purpose
  | compiling
  | validating
  deriving DecidableEq

/-- The failures of the validator's own making. A `not` takes them for a failed schema. -/
inductive Fault
  | unreadable (purpose : Purpose) (cause : Unreadable)
  | rejected (purpose : Purpose) (cause : SchemaFault)
  | input (cause : InputFault)
  | ruleFailed (keyword path text : String)
  | hookFailed (path text : String)
  | recordTooDeep
  | entry (cause : EntryFault)

def Fault.message : Fault → String
  | .unreadable .compiling cause => cause.message
  | .unreadable .validating cause => "invalid schema JSON: " ++ cause.message
  | .rejected .compiling cause => cause.message
  | .rejected .validating cause => "failed to compile schema: " ++ cause.message
  | .input cause => cause.message
  | .ruleFailed keyword path text =>
    s!"validation error: rule '{keyword}' failed at {path}: {text}"
  | .hookFailed path text => s!"custom validation failed for {path}: {text}"
  | .recordTooDeep => "records are nested too deeply"
  | .entry cause => cause.message

/-- Why an option is refused. -/
inductive OptionFault
  | unknownName
  | notAMember
  | notText
  | unreadableTruth
  | notATruth
  deriving DecidableEq

/-- Everything a call may end in instead of an answer. -/
inductive Failure
  | fault (cause : Fault)
  | breakdown (b : Breakdown)
  | unknownMember (enumeration literal : String)
  | unknownOption (name : String)
  | options (details : List (String × OptionFault))
  | findings (found : List Finding)

/-- The text of a failure that has one of its own; the other two are lists. -/
def Failure.message : Failure → String
  | .fault cause => cause.message
  | .breakdown b => b.text
  | .unknownMember enumeration literal => s!"{literal} is not a valid {enumeration}"
  | .unknownOption name => s!"\"ValidatorOptions\" object has no field \"{name}\""
  | .options _ | .findings _ => ""

end Conform
