import Conform.Logged
import Conform.Schema.Document
import Conform.Tree
import Conform.Value.Freeze
import Conform.Value.JsonType
import Conform.Value.Literal

/-!
Compilation: a schema becomes a tree. The walk is structural on the raw schema; every nested schema
is compiled before the one around it.
-/
namespace Conform

/-- How compilation fails. A rejected pattern is foreseen except where it breaks more than the
syntax, or where its keyword has no rule. -/
inductive CompileFailure
  | refused (f : SchemaFault)
  | breakdown (b : Breakdown)

namespace Compile

abbrev Compiling := Logged CompileFailure

/-- What a key of a schema turns into. -/
inductive Member
  | note (key : String) (v : Value)
  | entry (e : Entry)

def refuse {α : Type} (f : SchemaFault) : Compiling α := .fail (.refused f)

def within {α : Type} (place : Place) (x : Compiling α) : Compiling α :=
  x.mapError fun
    | .refused f => .refused (.within place f)
    | .breakdown b => .breakdown b

/-- Reads a pattern. A problem of its syntax is a fault of the schema. -/
def checkPattern (fault : String → SchemaFault) (pattern : String) : Compiling Unit :=
  match Pattern.compile pattern with
  | .ok _ => pure ()
  | .error r => match r with
    | .malformed .. => refuse (fault (r.message pattern))
    | _ => .fail (.breakdown (.ofRejection pattern r))

def typeName : Value → Compiling Value
  | .string s =>
    match JsonType.ofName? s with
    | some _ => pure (.string s)
    | none => refuse (.unknownType s)
  | v => refuse (.typeNotAName v.literal)

def typeNames : List Value → Compiling (List Value)
  | [] => pure []
  | v :: vs => do
    let v ← typeName v
    let vs ← typeNames vs
    return v :: vs

def typeParam : Value → Compiling Value
  | .string s => typeName (.string s)
  | .array _ (v :: vs) => do
    let names ← typeNames (v :: vs)
    return .array .frozen names
  | v => refuse (.typeShape v.literal)

def numberParam (keyword : String) : Value → Compiling Value
  | .number n => pure (.number n)
  | v => refuse (.numberWanted keyword v.className)

def countParam (keyword : String) (v : Value) : Compiling Value :=
  match v.toInt? with
  | none => refuse (.integerWanted keyword v.className)
  | some n => if n < 0 then refuse (.negativeCount keyword n) else pure (.ofInt n)

def patternParam : Value → Compiling Value
  | .string s => do
    checkPattern (.badPattern s) s
    return .string s
  | v => refuse (.patternShape v.className)

def uniquenessParam : Value → Compiling Value
  | .bool b => pure (.bool b)
  | v => refuse (.uniquenessShape v.className)

def enumParam : Value → Compiling Value
  | .array a xs => pure (.freeze (.array a xs))
  | v => refuse (.arrayWanted Keyword.enum.name v.className)

def requiredNames : Nat → List Value → Compiling (List Value)
  | _, [] => pure []
  | i, v :: vs =>
    match v with
    | .string s => do
      let rest ← requiredNames (i + 1) vs
      return .string s :: rest
    | v => refuse (.requiredName i v.className)

def requiredParam : Value → Compiling Value
  | .array _ xs => do
    let names ← requiredNames 0 xs
    return .array .frozen names
  | v => refuse (.arrayWanted Keyword.required.name v.className)

/-- The strings of a list, if there is nothing else in it. -/
def strings? : List Value → Option (List String)
  | [] => some []
  | .string s :: vs => (strings? vs).map (s :: ·)
  | _ :: _ => none

/-- The patterns of a node, which are read whether or not their keyword has a rule. -/
def nodePatterns : List String → Compiling (List Pattern)
  | [] => pure []
  | p :: ps =>
    match Pattern.compile p with
    | .ok c => do
      let cs ← nodePatterns ps
      return c :: cs
    | .error r => .fail (.breakdown (.ofRejection p r))

def entriesOf (members : List Member) : List Entry :=
  members.filterMap fun
    | .entry e => some e
    | .note .. => none

def notesOf (members : List Member) : List (String × Value) :=
  members.filterMap fun
    | .note key v => some (key, v)
    | .entry _ => none

/-- The node of an object whose members are compiled. -/
def assemble (mode : Mode) (members : List Member) : Compiling Node := do
  let entries := entriesOf members
  let names := ((Node.paramIn? Keyword.patternProperties.name entries).bind Param.names?).getD []
  let patterns ← nodePatterns names
  return .mk mode entries patterns (notesOf members)

/-- A keyword without a rule: refused, dropped with a warning, or dropped. -/
def unruled (mode : Mode) (key : String) (v : Value) : Compiling Member :=
  let kept := Member.entry (.mk key (.plain v.freeze) none)
  match mode with
  | .strict => refuse (.unknownKeyword key)
  | .loose => pure kept
  | .warn => do
    Logged.write (.warning s!"Unknown keyword '{key}' ignored")
    return kept

variable (rules : Listing Rule) (mode : Mode)

mutual

def members : List (String × Value) → Compiling (List Member)
  | [] => pure []
  | (key, v) :: ms =>
    let first :=
      if key = referenceKey then refuse .reference
      else if key ∈ descriptiveKeys then pure (.note key v.freeze)
      else match Listing.get? key rules with
        | none => unruled mode key v
        | some rule =>
          (param (Keyword.ofName? key) v).map fun p => .entry (.mk key p (some rule))
    do
      let m ← first
      let rest ← members ms
      return m :: rest

/-- The parameter of a keyword that has a rule. The shape hangs on the keyword's name alone, so a
custom rule in a built-in place gets what the built-in one would. -/
def param : Option Keyword → Value → Compiling Param
  | none, v => pure (.plain v.freeze)
  | some .format, v => pure (.plain v.freeze)
  | some .type, v => (typeParam v).map .plain
  | some (.bound b), v => (numberParam b.name v).map .plain
  | some .multipleOf, v => (numberParam Keyword.multipleOf.name v).map .plain
  | some (.limit l), v => (countParam l.name v).map .plain
  | some .pattern, v => (patternParam v).map .plain
  | some .uniqueItems, v => (uniquenessParam v).map .plain
  | some .enum, v => (enumParam v).map .plain
  | some .required, v => (requiredParam v).map .plain
  | some .properties, .object _ ms => (properties ms).map .named
  | some .properties, v => refuse (.objectWanted Keyword.properties.name v.className)
  | some .patternProperties, .object _ ms => (patternProperties ms).map .named
  | some .patternProperties, v => refuse (.objectWanted Keyword.patternProperties.name v.className)
  | some .additionalProperties, .bool b => pure (.plain (.bool b))
  | some .additionalProperties, .object _ ms =>
    (within .additional (members ms >>= assemble mode)).map .node
  | some .additionalProperties, _ => refuse .additionalShape
  | some .items, .object _ ms => (within .items (members ms >>= assemble mode)).map .node
  | some .items, .array _ xs => (elements 0 xs).map .nodes
  | some .items, v => refuse (.itemsShape v.className)
  | some .dependencies, .object _ ms => (dependencies ms).map .dependencies
  | some .dependencies, v => refuse (.objectWanted Keyword.dependencies.name v.className)
  | some (.combine c), .array _ [] => refuse (.emptyCombinator c)
  | some (.combine c), .array _ (x :: xs) => (branches c 0 (x :: xs)).map .nodes
  | some (.combine c), v => refuse (.arrayWanted c.name v.className)
  | some .negation, .object _ [] => refuse .emptyNegation
  | some .negation, .object _ (m :: ms) => do
    let n ← within .negation (members (m :: ms) >>= assemble mode)
    if n.hasRules then return .node n else refuse .idleNegation
  | some .negation, v => refuse (.objectWanted Keyword.negation.name v.className)
  | some (.clause c), .object _ ms =>
    (within (.clause c) (members ms >>= assemble mode)).map .node
  | some (.clause c), v => refuse (.objectWanted c.name v.className)

def properties : List (String × Value) → Compiling (List (String × Node))
  | [] => pure []
  | (name, .object _ ms) :: rest => do
    let n ← within (.property name) (members ms >>= assemble mode)
    let ns ← properties rest
    return (name, n) :: ns
  | (name, v) :: _ => refuse (.propertyShape name v.className)

def patternProperties : List (String × Value) → Compiling (List (String × Node))
  | [] => pure []
  | (pattern, v) :: rest => do
    checkPattern (.badPatternProperty pattern) pattern
    match v with
    | .object _ ms => do
      let n ← within (.patternProperty pattern) (members ms >>= assemble mode)
      let ns ← patternProperties rest
      return (pattern, n) :: ns
    | _ => refuse (.patternPropertyShape pattern)

def elements : Nat → List Value → Compiling (List Node)
  | _, [] => pure []
  | i, .object _ ms :: rest => do
    let n ← within (.item i) (members ms >>= assemble mode)
    let ns ← elements (i + 1) rest
    return n :: ns
  | i, _ :: _ => refuse (.itemShape i)

def branches (c : Combinator) : Nat → List Value → Compiling (List Node)
  | _, [] => pure []
  | i, .object _ ms :: rest => do
    let n ← within (.branch c i) (members ms >>= assemble mode)
    let ns ← branches c (i + 1) rest
    return n :: ns
  | i, _ :: _ => refuse (.branchShape c i)

def dependencies : List (String × Value) → Compiling (List (String × Dependency))
  | [] => pure []
  | (name, .array _ xs) :: rest =>
    match strings? xs with
    | some names => do
      let ds ← dependencies rest
      return (name, .names names) :: ds
    | none => refuse (.dependencyNames name)
  | (name, .object _ ms) :: rest => do
    let n ← within (.dependency name) (members ms >>= assemble mode)
    let ds ← dependencies rest
    return (name, .node n) :: ds
  | (name, _) :: _ => refuse (.dependencyShape name)

end

end Compile

/-- Compiles a raw schema against the given rules. -/
def compileNode (rules : Listing Rule) (mode : Mode) : Value → Compile.Compiling Node
  | .object _ ms => Compile.members rules mode ms >>= Compile.assemble mode
  | v => Compile.refuse (.notASchema v.className)

/-- Compiles a whole schema; there must be one. -/
def compileSchema (rules : Listing Rule) (mode : Mode) : Value → Compile.Compiling Node
  | .null => Compile.refuse .absent
  | v => compileNode rules mode v

end Conform
