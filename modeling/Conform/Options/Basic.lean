import Conform.Fault
import Conform.Mode

/-!
The options of a validator. An option is set from a value of its own kind, a truth value also from
the usual words and numbers for it; everything that is wrong with a set of options is reported.
-/
namespace Conform

structure Options where
  tagName : String := "validate"
  mode : Mode := .strict
  layout : Layout := .detailed
  caching : Bool := false
  recursive : Bool := false
  stopAtFirst : Bool := false
  allowUnknown : Bool := false
  deriving DecidableEq

namespace Options

def truthWords : List String := ["1", "on", "t", "true", "y", "yes"]

def falsehoodWords : List String := ["0", "off", "f", "false", "n", "no"]

/-- The word of a truth value, in letters of either case. -/
def truthOfWord (s : String) : Except OptionFault Bool :=
  let word := String.ofList (s.toList.map Char.toLower)
  if word ∈ truthWords then .ok true
  else if word ∈ falsehoodWords then .ok false
  else .error .unreadableTruth

/-- One and zero are truth values; other whole numbers of 64 bits look like a try. -/
def truthOfInt (n : Int) : Except OptionFault Bool :=
  if n = 1 then .ok true
  else if n = 0 then .ok false
  else if -0x8000000000000000 ≤ n && n < 0x8000000000000000 then .error .unreadableTruth
  else .error .notATruth

def truth : Value → Except OptionFault Bool
  | .bool b => .ok b
  | .string s => truthOfWord s
  | .number n => match n.toInt? with
    | some i => truthOfInt i
    | none => .error .notATruth
  | _ => .error .notATruth

def text : Value → Except OptionFault String
  | .string s => .ok s
  | _ => .error .notText

/-- A member of an enumeration by its name. -/
def memberOf {α : Type} (ofName? : String → Option α) (v : Value) : Except OptionFault α :=
  match v.string?.bind ofName? with
  | some a => .ok a
  | none => .error .notAMember

/-- Sets one option; no answer where there is none of the name. -/
def set? (o : Options) (name : String) (v : Value) : Option (Except OptionFault Options) :=
  match name with
  | "tag_name" => some ((text v).map ({ o with tagName := · }))
  | "validation_mode" => some ((memberOf Mode.ofName? v).map ({ o with mode := · }))
  | "error_format" => some ((memberOf Layout.ofName? v).map ({ o with layout := · }))
  | "enable_caching" => some ((truth v).map ({ o with caching := · }))
  | "recursive_validation" => some ((truth v).map ({ o with recursive := · }))
  | "stop_on_first_error" => some ((truth v).map ({ o with stopAtFirst := · }))
  | "allow_unknown_fields" => some ((truth v).map ({ o with allowUnknown := · }))
  | _ => none

/-- Sets one of many options, or adds to what is wrong with them. -/
def step (state : Options × List (String × OptionFault)) (m : String × Value) :
    Options × List (String × OptionFault) :=
  match state.1.set? m.1 m.2 with
  | some (.ok o) => (o, state.2)
  | some (.error f) => (state.1, state.2 ++ [(m.1, f)])
  | none => (state.1, state.2 ++ [(m.1, .unknownName)])

/-- Sets all the given options or none. -/
def override (o : Options) (members : List (String × Value)) :
    Except (List (String × OptionFault)) Options :=
  match members.foldl step (o, []) with
  | (o, []) => .ok o
  | (_, faults) => .error faults

def ofMembers (members : List (String × Value)) : Except (List (String × OptionFault)) Options :=
  override {} members

/-- The options by name. -/
def toMembers (o : Options) : List (String × Value) :=
  [("tag_name", .string o.tagName), ("validation_mode", .string o.mode.name),
    ("error_format", .string o.layout.name), ("enable_caching", .bool o.caching),
    ("recursive_validation", .bool o.recursive), ("stop_on_first_error", .bool o.stopAtFirst),
    ("allow_unknown_fields", .bool o.allowUnknown)]

end Options

end Conform
