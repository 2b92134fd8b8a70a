import Conform.Json.Writer
import Conform.Logged
import Conform.Pattern.Matcher
import Conform.Tree
import Conform.Value.Equal
import Conform.Value.Freeze
import Conform.Value.JsonType

/-!
The rules that look at a value alone and never at a schema inside their parameter. Each gives its
findings; none means that the value passes.
-/
namespace Conform

/-- Whether a number keeps within a bound. -/
def Bound.admits : Bound → Number → Number → Bool
  | .minimum, n, b => !n.less b
  | .maximum, n, b => !b.less n
  | .exclusiveMinimum, n, b => !n.lessOrEqual b
  | .exclusiveMaximum, n, b => !b.lessOrEqual n

/-- Whether a size keeps a limit. -/
def Limit.keeps : Limit → Nat → Int → Bool
  | .minLength, n, limit | .minItems, n, limit | .minProperties, n, limit => limit ≤ n
  | _, n, limit => n ≤ limit

namespace Rules

/-- Why a rule gives no findings of its own. -/
inductive Break
  | fault (f : Fault)
  | breakdown (b : Breakdown)
  /-- These findings stand in for all that the rule found before. -/
  | replaced (found : List Finding)

abbrev Checking := Logged Break

/-- What is asked of a value at a place. -/
structure Subject where
  frame : Frame
  value : Value
  path : Path

/-- A finding at the subject's own place, showing its value. -/
def Subject.finding (s : Subject) (tag : String) (reason : Reason) (param : Option String := none) :
    List Finding :=
  [{ path := s.path, reason, tag, value := s.value, param }]

/-- A finding that shows no value. -/
def Subject.bareFinding (s : Subject) (tag : String) (reason : Reason) : List Finding :=
  [{ path := s.path, reason, tag }]

def typeNames : Value → List String
  | .string s => [s]
  | .array _ xs => xs.filterMap Value.string?
  | _ => []

def checkType (s : Subject) (param : Value) : List Finding :=
  let expected := typeNames param
  if expected.any fun name => JsonType.namedAdmits name s.value then []
  else
    let reason := match expected with
      | [name] => .mistyped s.value.jsonType name
      | names => .typedAsNone names
    s.finding "type" reason (some (", ".intercalate expected))

def checkBound (b : Bound) (s : Subject) (param : Value) : List Finding :=
  match s.value.number?, param.number? with
  | none, _ => s.finding b.name .notANumber
  | _, none => s.finding b.name (.badBound b)
  | some n, some limit =>
    if b.admits n limit then []
    else s.finding b.name (.outOfBound b limit.display) (some limit.display)

def zero : Number := .integer 0

def checkMultipleOf (s : Subject) (param : Value) : List Finding :=
  let tag := Keyword.multipleOf.name
  match param.number? with
  | none => s.finding tag .badDivisor
  | some d =>
    if d.lessOrEqual zero then s.finding tag .badDivisor
    else match s.value.number? with
      | none => s.finding tag .indivisibleKind
      | some n => match n.isMultipleOf d with
        | .ok true => []
        | _ => s.finding tag (.notMultiple n.display d.display) (some d.display)

/-- The size that a limit is about, or what is wrong with a value that has none. -/
def size : Limit → Value → Except Reason Nat
  | .minLength, .string s | .maxLength, .string s => .ok s.length
  | .minItems, .array _ xs | .maxItems, .array _ xs => .ok xs.length
  | .minProperties, .object _ ms | .maxProperties, .object _ ms => .ok ms.length
  | .minLength, _ | .maxLength, _ => .error .notAString
  | .minItems, _ | .maxItems, _ => .error .notAnArray
  | l, _ => .error (.notAnObject l)

def checkLimit (l : Limit) (s : Subject) (param : Value) : List Finding :=
  match size l s.value with
  | .error reason => s.finding l.name reason
  | .ok n => match param.toInt? with
    | none => s.finding l.name (.badLimit l)
    | some limit =>
      if limit < 0 then s.finding l.name (.badLimit l)
      else if l.keeps n limit then []
      else s.finding l.name (.beyondLimit l limit n) (some (toString limit))

def checkPattern (s : Subject) (param : Value) : Checking (List Finding) :=
  let tag := Keyword.pattern.name
  match s.value, param with
  | .string text, .string pattern =>
    match Pattern.compile pattern with
    | .ok p =>
      pure (if p.search text then [] else s.finding tag (.patternMismatch pattern) (some pattern))
    | .error r => match r with
      | .malformed .. => pure (s.finding tag (.unusablePattern (r.message pattern)) (some pattern))
      | _ => .fail (.breakdown (.ofRejection pattern r))
  | .string _, _ => pure (s.finding tag .badPattern)
  | _, _ => pure (s.finding tag .notAString)

/-- Whether no element equals one before it. -/
def distinct : List Value → List Value → Bool
  | _, [] => true
  | seen, x :: xs => !seen.any (fun y => x.same y) && distinct (seen ++ [x]) xs

def checkUniqueItems (s : Subject) (param : Value) : List Finding :=
  let tag := Keyword.uniqueItems.name
  match param, s.value with
  | .bool false, _ => []
  | .bool true, .array _ xs => if distinct [] xs then [] else s.finding tag .duplicates
  | .bool true, _ => s.finding tag .notAnArray
  | _, _ => s.finding tag .badUniqueness

/-- An allowed value as it is listed. -/
def listed : Value → String
  | .string s => s
  | .number n => n.display
  | v => Json.render v.thaw

def checkEnum (s : Subject) (param : Value) : List Finding :=
  let allowed := param.items?.getD []
  if allowed.any fun a => s.value.same a then []
  else
    let shown := ", ".intercalate (allowed.map listed)
    s.finding Keyword.enum.name (.notListed shown) (some shown)

/-- A format nobody registered passes in loose mode and fails in the others. -/
def checkFormat (s : Subject) (param : Value) : Checking (List Finding) :=
  let tag := Keyword.format.name
  match param, s.value with
  | .string name, .string text =>
    match Listing.get? name s.frame.formats with
    | some checker => match checker.check text with
      | .ok true => pure []
      | .ok false => pure (s.finding tag (.formatMismatch name) (some name))
      | .error b => .fail (.breakdown b)
    | none => match s.frame.mode with
      | .loose => pure []
      | .strict => pure (s.finding tag (.unknownFormat name) (some name))
      | .warn => do
        Logged.write (.warning s!"Unknown format '{name}' at {s.path.text}")
        return s.finding tag (.unknownFormat name) (some name)
  | .string name, _ => pure (s.finding tag .formatOfNonString (some name))
  | _, _ => pure (s.finding tag .badFormat)

def checkRequired (s : Subject) (param : Value) : List Finding :=
  let tag := Keyword.required.name
  match s.value with
  | .object _ ms =>
    let names := (param.items?.getD []).filterMap Value.string?
    (names.filter fun name => !Listing.has name ms).map fun name =>
      { path := s.path.child (.member name), reason := .missing name, tag, param := some name }
  | _ => s.finding tag .requiredOfNonObject

end Rules

end Conform
