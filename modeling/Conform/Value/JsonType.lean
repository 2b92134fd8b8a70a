import Conform.Value.Basic

/-!
The seven type names of a schema and what each one admits.
-/
namespace Conform

inductive JsonType
  | string
  | number
  | integer
  | boolean
  | object
  | array
  | null
  deriving DecidableEq

namespace JsonType

def name : JsonType → String
  | .string => "string"
  | .number => "number"
  | .integer => "integer"
  | .boolean => "boolean"
  | .object => "object"
  | .array => "array"
  | .null => "null"

def all : List JsonType := [string, number, integer, boolean, object, array, null]

def ofName? (s : String) : Option JsonType := all.find? (·.name == s)

/-- Whole numbers of every kind count as integers. -/
def admits : JsonType → Value → Bool
  | .string, .string _ => true
  | .number, .number _ => true
  | .integer, v => v.isInteger
  | .boolean, .bool _ => true
  | .object, .object .. => true
  | .array, .array .. => true
  | .null, .null => true
  | _, _ => false

/-- An unknown name admits nothing. -/
def namedAdmits (name : String) (v : Value) : Bool :=
  match ofName? name with
  | some t => t.admits v
  | none => false

end JsonType

end Conform
