import Conform.Listing

/-!
The keywords with a built-in rule, in their order of registration, and the keys beside them.
-/
namespace Conform

/-- The family of a rule. -/
inductive Kind
  | primitive
  | structural
  | logical
  | custom
  deriving DecidableEq

namespace Kind

def name : Kind → String
  | .primitive => "primitive"
  | .structural => "structural"
  | .logical => "logical"
  | .custom => "custom"

def ofName? (s : String) : Option Kind :=
  [primitive, structural, logical, custom].find? (·.name == s)

end Kind

/-- The four bounds on a number. -/
inductive Bound
  | minimum
  | maximum
  | exclusiveMinimum
  | exclusiveMaximum
  deriving DecidableEq

/-- The six limits on a size. -/
inductive Limit
  | minLength
  | maxLength
  | minItems
  | maxItems
  | minProperties
  | maxProperties
  deriving DecidableEq

/-- The three keywords that take a list of schemas. -/
inductive Combinator
  | allOf
  | anyOf
  | oneOf
  deriving DecidableEq

/-- The three parts of a condition. -/
inductive Clause
  | condition
  | consequent
  | alternative
  deriving DecidableEq

inductive Keyword
  | type
  | bound (b : Bound)
  | multipleOf
  | limit (l : Limit)
  | pattern
  | uniqueItems
  | enum
  | format
  | properties
  | patternProperties
  | additionalProperties
  | items
  | dependencies
  | required
  | combine (c : Combinator)
  | negation
  | clause (c : Clause)
  deriving DecidableEq

def Bound.name : Bound → String
  | .minimum => "minimum"
  | .maximum => "maximum"
  | .exclusiveMinimum => "exclusiveMinimum"
  | .exclusiveMaximum => "exclusiveMaximum"

def Limit.name : Limit → String
  | .minLength => "minLength"
  | .maxLength => "maxLength"
  | .minItems => "minItems"
  | .maxItems => "maxItems"
  | .minProperties => "minProperties"
  | .maxProperties => "maxProperties"

def Combinator.name : Combinator → String
  | .allOf => "allOf"
  | .anyOf => "anyOf"
  | .oneOf => "oneOf"

def Clause.name : Clause → String
  | .condition => "if"
  | .consequent => "then"
  | .alternative => "else"

namespace Keyword

def name : Keyword → String
  | .type => "type"
  | .bound b => b.name
  | .multipleOf => "multipleOf"
  | .limit l => l.name
  | .pattern => "pattern"
  | .uniqueItems => "uniqueItems"
  | .enum => "enum"
  | .format => "format"
  | .properties => "properties"
  | .patternProperties => "patternProperties"
  | .additionalProperties => "additionalProperties"
  | .items => "items"
  | .dependencies => "dependencies"
  | .required => "required"
  | .combine c => c.name
  | .negation => "not"
  | .clause c => c.name

def kind : Keyword → Kind
  | .properties | .patternProperties | .additionalProperties | .items | .dependencies
  | .required => .structural
  | .combine _ | .negation | .clause _ => .logical
  | _ => .primitive

/-- All built-in keywords in the order they are registered. -/
def all : List Keyword :=
  [.type, .bound .minimum, .bound .maximum, .bound .exclusiveMinimum, .bound .exclusiveMaximum,
    .multipleOf, .limit .minLength, .limit .maxLength, .pattern, .limit .minItems, .limit .maxItems,
    .uniqueItems, .limit .minProperties, .limit .maxProperties, .enum, .format, .properties,
    .patternProperties, .additionalProperties, .items, .dependencies, .required, .combine .allOf,
    .combine .anyOf, .combine .oneOf, .negation, .clause .condition, .clause .consequent,
    .clause .alternative]

def ofName? (s : String) : Option Keyword := all.find? (·.name == s)

end Keyword

/-- Keys that describe a schema and are never evaluated. -/
def descriptiveKeys : List String :=
  ["$id", "$schema", "$comment", "title", "description", "default", "examples"]

/-- The key that asks for another schema, which is always refused. -/
def referenceKey : String := "$ref"

end Conform
