import Conform.Comparator
import Conform.Tree
import Conform.Value.Literal
import Conform.Value.Truth

/-!
Stock entries for the registries: small custom rules, comparators and checks by name.
-/
namespace Conform

namespace Stock

/-- The text of a parameter in a finding; an absent one is not shown. -/
def paramText? : Value → Option String
  | .null => none
  | v => some v.display

def complain (c : Call) (tag message : String) : Verdict :=
  .violated
    [{ path := c.path, reason := .custom message, tag, value := c.value,
       param := paramText? c.param }]

def startsWith (c : Call) : Verdict :=
  let start := c.param.display
  match c.value with
  | .string s =>
    if start.toList.isPrefixOf s.toList then .passed
    else complain c "startsWith" ("must start with " ++ start)
  | _ => complain c "startsWith" ("must start with " ++ start)

def twoFindings (c : Call) : Verdict :=
  .violated [{ path := c.path, reason := .custom "first", tag := "two" },
    { path := c.path, reason := .custom "second", tag := "two", value := c.value }]

def flag (b : Bool) : String := if b then "1" else "0"

def frameText (f : Frame) : String :=
  let declared := ",".intercalate (f.declared.mergeSort fun a b => a ≤ b)
  let patterns := ",".intercalate (f.patterns.map (·.source))
  let condition := match f.condition with
    | none => "none"
    | some true => "true"
    | some false => "false"
  s!"mode={f.mode.name} stop={flag f.stopAtFirst} allow={flag f.allowUnknown} " ++
    s!"declared={declared} patterns={patterns} if={condition}"

def showFrame (c : Call) : Verdict :=
  .violated
    [{ path := c.path, reason := .custom (frameText c.frame), tag := "frame", value := c.value }]

def ofBool (b : Bool) : Verdict := if b then .passed else .failed

def rules : Listing (Call → Verdict) :=
  [("true", fun _ => .passed), ("false", fun _ => .failed), ("none", fun _ => .failed),
    ("param", fun c => ofBool c.param.isTruthy),
    ("gt", fun c => ofBool (Comparator.numeric (fun x y => y.less x) c.value c.param)),
    ("starts_with", startsWith), ("two", twoFindings), ("silent", fun _ => .violated []),
    ("explode", fun _ => .crashed ⟨"RuntimeError", "boom"⟩),
    ("hard", fun _ => .aborted (.input (.custom "hard stop"))), ("frame", showFrame),
    ("type_of", fun c => complain c "typeOf" c.value.jsonType)]

def rule? (label : String) : Option CustomRule := (Listing.get? label rules).map (⟨label, ·⟩)

def bothStrings (f : String → String → Bool) : Value → Value → Bool
  | .string s, .string t => f s t
  | _, _ => false

def comparators : Listing (Value → Value → Bool) :=
  [("prefix", bothStrings fun s t => t.toList.isPrefixOf s.toList), ("true", fun _ _ => true),
    ("false", fun _ _ => false)]

def comparator? (label : String) : Option Comparator :=
  (Listing.get? label comparators).map (⟨label, ·⟩)

def checks : Listing (String → Except Breakdown Bool) :=
  [("digits", fun s => .ok (!s.isEmpty && s.all Char.isDigit)), ("true", fun _ => .ok true),
    ("false", fun _ => .ok false),
    ("explode", fun _ => .error ⟨"ValueError", "checker failed"⟩)]

def checker? (label : String) : Option Checker := (Listing.get? label checks).map (⟨label, ·⟩)

/-- Strings without the spaces at both ends; every other value as it is. -/
def stripSpaces : Value → Value
  | .string s =>
    .string (String.ofList
      ((s.toList.dropWhile (· == ' ')).reverse.dropWhile (· == ' ')).reverse)
  | v => v

def conversions : Listing (Value → Value) :=
  [("strip", stripSpaces), ("null", fun _ => .null), ("wrap", fun v => .list [v])]

def conversion? (label : String) : Option (Value → Value) := Listing.get? label conversions

/-- Accepts everything but what stands at one of the paths. -/
def rejecting (paths : List String) (_ : Value) (path : String) : Except String Bool :=
  .ok (!paths.contains path)

def breakingDown (text : String) (_ : Value) (_ : String) : Except String Bool := .error text

end Stock

end Conform
