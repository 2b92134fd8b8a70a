import Conform.Comparator
import Conform.Options.Settings
import Conform.Registry
import Conform.Report
import Conform.Rules.Evaluate
import Conform.Schema.Compile
import Conform.Validator.Work

/-!
Validators: options, registries, hooks and a memory of compiled schemas. A schema is remembered
under its text while caching is on; entering a rule or changing the mode empties the memory.
-/
namespace Conform

/-- A compiled schema and its number among those its validator has compiled. -/
structure Compiled where
  serial : Nat
  node : Node

/-- Functions a user can put into the validation of records. -/
structure Hooks where
  /-- Replaces a field's value before it is looked at. -/
  convert : Option (Value → Value) := none
  /-- Gives a field's tag in place of its label. -/
  tagOf : Option (Field → Option String) := none
  /-- Accepts or rejects a value at a path, or breaks down with a text. -/
  accept : Option (Value → String → Except String Bool) := none

structure Validator where
  options : Options := {}
  rules : Listing Rule := Rule.builtins
  comparators : Listing Comparator := Comparator.builtins
  /-- Formats of its own; without them the shared ones hold. -/
  formats : Option (Listing Checker) := none
  hooks : Hooks := {}
  memory : Listing Compiled := []
  /-- How many schemas it has compiled. -/
  made : Nat := 0

abbrev Validating := Work Validator Failure

namespace Validator

def fault {α : Type} (f : Fault) : Validating α := .fail (.fault f)

def forget : Validating Unit := .modify fun v => { v with memory := [] }

/-- A compiled schema that is remembered, unless caching is off. -/
def remembered? (v : Validator) (key : Option String) : Option Compiled :=
  if v.options.caching then key.bind fun k => v.memory.get? k else none

def remember (v : Validator) (key : Option String) (c : Compiled) : Validator :=
  match key with
  | some k => if v.options.caching then { v with memory := v.memory.put k c } else v
  | none => v

def compileFailure (purpose : Purpose) : CompileFailure → Failure
  | .refused f => .fault (.rejected purpose f)
  | .breakdown b => .breakdown b

/-- Reads and compiles a schema in the validator's mode, unless it is remembered. -/
def compileFor (purpose : Purpose) (source : Source) : Validating Compiled := fun v =>
  let key := source.memoText?
  match v.remembered? key with
  | some c => (pure c, v)
  | none => match Document.read v.options.mode source with
    | .error cause => (.fail (.fault (.unreadable purpose cause)), v)
    | .ok d =>
      let x := (compileSchema v.rules v.options.mode d.raw).mapError (compileFailure purpose)
      match x.result with
      | .error e => (⟨.error e, x.log⟩, v)
      | .ok node =>
        let c := ⟨v.made, node⟩
        (⟨.ok c, x.log⟩, { v.remember key c with made := v.made + 1 })

def compile (source : Source) : Validating Compiled := compileFor .compiling source

/-- The settings of a run, with the given formats where the validator has none of its own. -/
def frame (v : Validator) (shared : Listing Checker) : Frame :=
  { mode := v.options.mode, formats := v.formats.getD shared,
    stopAtFirst := v.options.stopAtFirst, allowUnknown := v.options.allowUnknown }

/-- All findings of a value against a compiled schema, with paths from the given root. -/
def validate (shared : Listing Checker) (value : Value) (node : Node) (root : String) :
    Validating (List Finding) := fun v =>
  ((Rules.evaluate ⟨v.frame shared, value, .ofString root⟩ node).mapError .fault, v)

/-- The root of all paths, unless another is given. -/
def rootName : String := "$"

def readData : Value → Except InputFault Value
  | .string s => match Json.parse s with
    | .ok v => .ok v
    | .error m => .error (.misread m s.toList)
  | .bytes _ data => match Text.decodeDetected data with
    | .error e => .error (.undecodable e)
    | .ok cs => match Json.parseChars cs with
      | .ok v => .ok v
      | .error m => .error (.misread m cs)
  | v => .error (.notText v.className)

/-- Validates JSON text. What is wrong with the data is reported before what is wrong with the
schema. -/
def validateText (shared : Listing Checker) (data : Value) (source : Source) :
    Validating (List Finding) := do
  match readData data with
  | .error cause => fault (.input cause)
  | .ok value =>
    let c ← compileFor .validating source
    validate shared value c.node rootName

def validateWith (shared : Listing Checker) (value : Value) (source : Source) (root : String) :
    Validating (List Finding) := do
  let c ← compile source
  validate shared value c.node root

/-- Enters a rule. Remembered schemas hold the rules of before and are forgotten. -/
def enterRule (name : String) (rule : Option CustomRule) (kind : Kind) (replace : Bool) :
    Validating Unit := do
  let v ← .get
  match Registry.enter .rules replace name (rule.map fun r => ⟨.custom r, kind⟩) v.rules with
  | .error f => fault (.entry f)
  | .ok rules =>
    .set { v with rules }
    forget

def clearRules : Validating Unit := .modify fun v => { v with rules := [] }

def enterComparator (name : String) (c : Option Comparator) (replace : Bool) : Validating Unit := do
  let v ← .get
  match Registry.enter .comparators replace name c v.comparators with
  | .error f => fault (.entry f)
  | .ok comparators => .set { v with comparators }

/-- Whether two values compare under a name, if there is a comparator of that name. -/
def compare? (v : Validator) (name : String) (a b : Value) : Option Bool :=
  (v.comparators.get? name).map fun c => c.holds a b

/-- A format's checker always replaces the one before it. -/
def enterFormat (name : String) (c : Option Checker) (l : Listing Checker) :
    Except Failure (Listing Checker) :=
  (Registry.enter .formats true name c l).mapError fun f => .fault (.entry f)

def setOption (name : String) (value : Value) : Validating Unit := do
  let v ← .get
  match v.options.set? name value with
  | some (.ok options) => .set { v with options }
  | some (.error f) => .fail (.options [(name, f)])
  | none => .fail (.unknownOption name)

def setMode (mode : Mode) : Validating Unit := do
  .modify fun v => { v with options := { v.options with mode } }
  forget

def setLayout (layout : Layout) : Validating Unit :=
  .modify fun v => { v with options := { v.options with layout } }

def report (v : Validator) (found : List Finding) (layout : Option Layout) : String :=
  Report.write (layout.getD v.options.layout) found

end Validator

end Conform
