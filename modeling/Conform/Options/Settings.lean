import Conform.Options.Basic
import Conform.Text.Blank

/-!
Settings: the defaults of a process, from its environment and from arguments, which win. Modes and
layouts are still text here; they are looked up when options are made of them.
-/
namespace Conform

structure Settings where
  tagName : String := "validate"
  mode : String := "strict"
  layout : String := "detailed"
  caching : Bool := false
  recursive : Bool := false
  stopAtFirst : Bool := false
  allowUnknown : Bool := false
  logLevel : String := "INFO"
  deriving DecidableEq

namespace Settings

/-- What the name of a variable starts with, in letters of either case. -/
def variableStart : String := "schema_validator_"

def lowered (s : String) : String := String.ofList (s.toList.map Char.toLower)

def stripped (v : Value) : Except OptionFault String :=
  (Options.text v).map fun s => String.ofList (Text.strip s.toList)

/-- Sets one setting. Names that are none are passed over. -/
def set (s : Settings) (name : String) (v : Value) : Except OptionFault Settings :=
  match name with
  | "tag_name" => (Options.text v).map ({ s with tagName := · })
  | "validation_mode" => (stripped v).map ({ s with mode := · })
  | "error_format" => (stripped v).map ({ s with layout := · })
  | "enable_caching" => (Options.truth v).map ({ s with caching := · })
  | "recursive_validation" => (Options.truth v).map ({ s with recursive := · })
  | "stop_on_first_error" => (Options.truth v).map ({ s with stopAtFirst := · })
  | "allow_unknown_fields" => (Options.truth v).map ({ s with allowUnknown := · })
  | "log_level" => (stripped v).map ({ s with logLevel := · })
  | _ => .ok s

def step (state : Settings × List (String × OptionFault)) (m : String × Value) :
    Settings × List (String × OptionFault) :=
  match state.1.set m.1 m.2 with
  | .ok s => (s, state.2)
  | .error f => (state.1, state.2 ++ [(m.1, f)])

/-- The setting that a variable of the environment is for, if it is for one. -/
def settingOf? (name : String) : Option String :=
  let cs := (lowered name).toList
  let start := variableStart.toList
  if start.isPrefixOf cs then some (String.ofList (cs.drop start.length)) else none

/-- The values from the environment, each under the name of its setting. -/
def ofEnvironment (env : List (String × String)) : Listing Value :=
  env.foldl (fun l e => match settingOf? e.1 with
    | some name => l.put name (.string e.2)
    | none => l) []

def read (env : List (String × String)) (arguments : List (String × Value)) :
    Except (List (String × OptionFault)) Settings :=
  let values := arguments.foldl (fun l m => Listing.put m.1 m.2 l) (ofEnvironment env)
  match values.foldl step ({}, []) with
  | (s, []) => .ok s
  | (_, faults) => .error faults

/-- The values that options are made of, in the order of the options. -/
def optionMembers (s : Settings) : Listing Value :=
  [("tag_name", .string s.tagName), ("validation_mode", .string (lowered s.mode)),
    ("error_format", .string (lowered s.layout)), ("enable_caching", .bool s.caching),
    ("recursive_validation", .bool s.recursive), ("stop_on_first_error", .bool s.stopAtFirst),
    ("allow_unknown_fields", .bool s.allowUnknown)]

/-- Options from the settings, with some of them given anew. -/
def options (s : Settings) (overrides : List (String × Value)) :
    Except (List (String × OptionFault)) Options :=
  Options.ofMembers (overrides.foldl (fun l m => Listing.put m.1 m.2 l) s.optionMembers)

def toMembers (s : Settings) : List (String × Value) :=
  [("tag_name", .string s.tagName), ("validation_mode", .string s.mode),
    ("error_format", .string s.layout), ("stop_on_first_error", .bool s.stopAtFirst),
    ("recursive_validation", .bool s.recursive), ("allow_unknown_fields", .bool s.allowUnknown),
    ("enable_caching", .bool s.caching), ("log_level", .string s.logLevel)]

end Settings

end Conform
