import Conform.Number.Basic
import Conform.Listing

/-!
Values: what a schema is written in and what is validated. Beside JSON there are byte strings,
sets, frozen containers, records, and foreign things known only by class name and text.
-/
namespace Conform

/-- Whether a container may still change. Frozen arrays are sequences of fixed content, frozen
objects read-only views. -/
inductive Access
  | mutable
  | frozen
  deriving DecidableEq

mutual

inductive Value
  | null
  | bool (b : Bool)
  | number (n : Number)
  | string (s : String)
  | bytes (access : Access) (data : List UInt8)
  | array (access : Access) (items : List Value)
  | set (items : List Value)
  /-- Members in order of first appearance, each name once. -/
  | object (access : Access) (members : List (String × Value))
  | foreign (className text : String)
  | record (className : String) (fields : List Field)

/-- A field of a record: name, labels by key, and value. -/
inductive Field
  | mk (name : String) (labels : List (String × String)) (value : Value)

end

namespace Field

def name : Field → String
  | .mk n _ _ => n

def labels : Field → List (String × String)
  | .mk _ l _ => l

def value : Field → Value
  | .mk _ _ v => v

end Field

namespace Value

instance : Inhabited Value := ⟨.null⟩

def ofInt (n : Int) : Value := .number (.integer n)

def list (items : List Value) : Value := .array .mutable items

def isNull : Value → Bool
  | .null => true
  | _ => false

def number? : Value → Option Number
  | .number n => some n
  | _ => none

def string? : Value → Option String
  | .string s => some s
  | _ => none

def bool? : Value → Option Bool
  | .bool b => some b
  | _ => none

def items? : Value → Option (List Value)
  | .array _ xs => some xs
  | _ => none

def members? : Value → Option (List (String × Value))
  | .object _ ms => some ms
  | _ => none

/-- The whole number a value equals, if it is a number that equals one. -/
def toInt? (v : Value) : Option Int := v.number?.bind Number.toInt?

def isInteger (v : Value) : Bool := v.toInt?.isSome

/-- The class a value belongs to, as shown where a schema is of the wrong shape. -/
def className : Value → String
  | .null => "NoneType"
  | .bool _ => "bool"
  | .number (.integer _) => "int"
  | .number (.double _) => "float"
  | .number (.decimal _) => "Decimal"
  | .number (.fraction _) => "Fraction"
  | .string _ => "str"
  | .bytes .frozen _ => "bytes"
  | .bytes .mutable _ => "bytearray"
  | .array .mutable _ => "list"
  | .array .frozen _ => "tuple"
  | .set _ => "set"
  | .object .mutable _ => "dict"
  | .object .frozen _ => "mappingproxy"
  | .foreign name _ => name
  | .record name _ => name

/-- The JSON type of a value; what JSON does not know goes by its class. Only exact whole numbers
are integers here, although a whole double passes where an integer is asked for. -/
def jsonType : Value → String
  | .null => "null"
  | .bool _ => "boolean"
  | .number (.integer _) => "integer"
  | .number _ => "number"
  | .string _ => "string"
  | .object .. => "object"
  | .array .. => "array"
  | v => v.className

end Value

end Conform
