import Conform.Format.Checker
import Conform.Mode
import Conform.Pattern.Reader

/-!
Compiled schemas: trees whose nodes hold the keywords of one schema object in document order, each
with its parameter and, if it has one, its rule. Custom rules see a node as a record.
-/
namespace Conform

/-- What a rule may know beside its value and its parameter: the settings of the run, and facts of
the node that it belongs to. -/
structure Frame where
  mode : Mode := .strict
  formats : Listing Checker := Checker.builtins
  stopAtFirst : Bool := false
  allowUnknown : Bool := false
  declared : List String := []
  patterns : List Pattern := []
  /-- Whether the value meets the node's condition, if the node has one. -/
  condition : Option Bool := none

/-- How a rule ends: well, ill without or with findings, or not at all. -/
inductive Verdict
  | passed
  | failed
  | violated (found : List Finding)
  | aborted (fault : Fault)
  | crashed (b : Breakdown)

/-- One use of a custom rule. -/
structure Call where
  frame : Frame
  value : Value
  param : Value
  path : Path

structure CustomRule where
  label : String
  apply : Call → Verdict

inductive Handler
  | builtin (k : Keyword)
  | custom (rule : CustomRule)

structure Rule where
  handler : Handler
  kind : Kind

namespace Handler

def label : Handler → String
  | .builtin _ => Checker.builtinLabel
  | .custom rule => rule.label

/-- Custom rules are told apart by their labels. -/
def same : Handler → Handler → Bool
  | .builtin j, .builtin k => j == k
  | .custom r, .custom s => r.label == s.label
  | _, _ => false

end Handler

def Rule.builtins : Listing Rule := Keyword.all.map fun k => (k.name, ⟨.builtin k, k.kind⟩)

mutual

inductive Node
  | mk (mode : Mode) (entries : List Entry) (patterns : List Pattern)
    (notes : List (String × Value))

/-- A keyword of a node. Without a rule it is only kept. -/
inductive Entry
  | mk (keyword : String) (param : Param) (rule : Option Rule)

inductive Param
  | plain (v : Value)
  | node (n : Node)
  | nodes (ns : List Node)
  /-- Schemas by property name or by pattern. -/
  | named (ns : List (String × Node))
  | dependencies (ds : List (String × Dependency))

inductive Dependency
  | names (required : List String)
  | node (n : Node)
  /-- Neither names nor a schema; compilation never leaves one. -/
  | unusable (v : Value)

end

namespace Entry

def keyword : Entry → String
  | .mk k _ _ => k

def param : Entry → Param
  | .mk _ p _ => p

def rule : Entry → Option Rule
  | .mk _ _ r => r

end Entry

/-- A keyword bound to the rule that checks it. -/
structure Binding where
  keyword : String
  param : Param
  rule : Rule

namespace Param

/-- The names of a mapping, and nothing for any other parameter. -/
def names? : Param → Option (List String)
  | .named ns => some (ns.map (·.1))
  | .dependencies ds => some (ds.map (·.1))
  | .plain (.object _ ms) => some (ms.map (·.1))
  | _ => none

def nodeView : Value := .record "CompiledSchema" []

def frozenTexts (names : List String) : Value := .array .frozen (names.map .string)

def dependencyView : Dependency → Value
  | .names required => frozenTexts required
  | .node _ => nodeView
  | .unusable v => v

/-- A parameter as a custom rule sees it. -/
def view : Param → Value
  | .plain v => v
  | .node _ => nodeView
  | .nodes ns => .array .frozen (ns.map fun _ => nodeView)
  | .named ns => .object .frozen (ns.map fun n => (n.1, nodeView))
  | .dependencies ds => .object .frozen (ds.map fun d => (d.1, dependencyView d.2))

/-- The names in a list, or the value as it is if it is no list. -/
def dependencyOf : Value → Dependency
  | .array _ xs => .names (xs.filterMap Value.string?)
  | v => .unusable v

/-- The parameter that a plain value makes for a keyword, without any schema in it. -/
def ofValue : Keyword → Value → Param
  | .dependencies, .object _ ms => .dependencies (ms.map fun m => (m.1, dependencyOf m.2))
  | _, v => .plain v

/-- The parameter that schemas by name make for a keyword. -/
def ofNodes : Keyword → List (String × Node) → Param
  | .dependencies, ns => .dependencies (ns.map fun n => (n.1, .node n.2))
  | _, ns => .named ns

end Param

namespace Node

def mode : Node → Mode
  | .mk m _ _ _ => m

def entries : Node → List Entry
  | .mk _ es _ _ => es

def patterns : Node → List Pattern
  | .mk _ _ ps _ => ps

/-- The descriptive keys and their values. -/
def notes : Node → List (String × Value)
  | .mk _ _ _ ns => ns

def bindings (n : Node) : List Binding :=
  n.entries.filterMap fun e => e.rule.map fun r => ⟨e.keyword, e.param, r⟩

def paramIn? (keyword : String) : List Entry → Option Param
  | [] => none
  | e :: es => if e.keyword = keyword then some e.param else paramIn? keyword es

def param? (n : Node) (keyword : String) : Option Param := paramIn? keyword n.entries

def declaredIn (entries : List Entry) : List String :=
  ((paramIn? Keyword.properties.name entries).bind Param.names?).getD []

/-- The names under the node's own properties. -/
def declared (n : Node) : List String := declaredIn n.entries

def hasRules (n : Node) : Bool := n.entries.any (·.rule.isSome)

def isBound (n : Node) (keyword : String) : Bool :=
  n.entries.any fun e => e.keyword == keyword && e.rule.isSome

def title? (n : Node) : Option Value := Listing.get? "title" n.notes

def id? (n : Node) : Option Value := Listing.get? "$id" n.notes

end Node

end Conform
