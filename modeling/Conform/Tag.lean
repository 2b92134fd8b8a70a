import Conform.Keyword
import Conform.Number.Literal
import Conform.Text.Blank
import Conform.Text.Split
import Conform.Value.Basic

/-!
Tags on the fields of records, such as `required,min=2,max=10`: directives between commas, each a
bare word or a key with a value. Directives become a schema for the value at hand.
-/
namespace Conform.Tag

/-- The keys whose value is read as a number where it can be. -/
def numericKeys : List String :=
  ["min", "max", "minLength", "maxLength", "minimum", "maximum", "exclusiveMinimum",
    "exclusiveMaximum", "multipleOf", "minItems", "maxItems", "minProperties", "maxProperties"]

def requiredKey : String := "required"

/-- A number if the text is one, a whole one if it can be, otherwise the text. -/
def numberOrText (text : String) : Value :=
  match Number.readInteger? text with
  | some n => .ofInt n
  | none => match Number.readDouble? text with
    | some x => .number (.double x)
    | none => .string text

def directiveValue (key : String) (raw : List Char) : Value :=
  if key ∈ numericKeys then numberOrText (String.ofList raw)
  else if key = "enum" then
    .list ((Text.splitAt '|' raw).map fun item => .string (String.ofList item))
  else .string (String.ofList raw)

/-- A directive, unless there is nothing but blanks. -/
def directive? (part : List Char) : Option (String × Value) :=
  match Text.strip part with
  | [] => none
  | cs =>
    if cs.contains '=' then
      let key := String.ofList (Text.strip (cs.takeWhile (· != '=')))
      some (key, directiveValue key (Text.strip ((cs.dropWhile (· != '=')).drop 1)))
    else some (String.ofList cs, .bool true)

/-- The directives of a tag in order. A repeated key keeps its first place and last value. -/
def parse (tag : String) : Listing Value :=
  ((Text.splitAt ',' tag.toList).filterMap directive?).foldl (fun l d => l.put d.1 d.2) []

/-- The keywords that bound values of a kind from below and above. -/
def boundsFor : Value → String × String
  | .string _ => (Limit.minLength.name, Limit.maxLength.name)
  | .object .. => (Limit.minProperties.name, Limit.maxProperties.name)
  | .array .. => (Limit.minItems.name, Limit.maxItems.name)
  | _ => (Bound.minimum.name, Bound.maximum.name)

/-- Adds a member unless its name is taken. -/
def putIfAbsent (name : String) (v : Value) (l : Listing Value) : Listing Value :=
  if l.has name then l else l.put name v

def addDirective (v : Value) (schema : Listing Value) (d : String × Value) : Listing Value :=
  if d.1 = requiredKey then schema
  else if d.1 = "min" then putIfAbsent (boundsFor v).1 d.2 schema
  else if d.1 = "max" then putIfAbsent (boundsFor v).2 d.2 schema
  else schema.put d.1 d.2

/-- The schema that directives make for a value. A bound written out wins over `min` and `max`. -/
def toSchema (directives : Listing Value) (v : Value) : Listing Value :=
  directives.foldl (addDirective v) []

end Conform.Tag
