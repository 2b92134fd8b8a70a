import Conform.Validator.Record

/-!
Sessions: requests to a validator of its own and to a default one that a process shares. The
default validator is made when it is first asked for; on it nothing is ever replaced.
-/
namespace Conform

/-- Which validator a request is for. -/
inductive Target
  | own
  | default
  deriving DecidableEq

inductive Request
  | validateText (data : Value) (schema : Source)
  | validateWith (value : Value) (schema : Source) (root : String)
  | compile (schema : Source) (handle : String)
  | validate (value : Value) (handle root : String)
  | validateVariable (value : Value) (tag : String)
  | validateRecord (value : Value)
  | enterRule (name : String) (rule : Option CustomRule) (kind : Value) (replace : Bool)
  | hasRule (name : String)
  | clearRules
  | enterComparator (name : String) (comparator : Option Comparator) (replace : Bool)
  | compare (name : String) (left right : Value)
  | enterFormat (name : String) (checker : Option Checker)
  | setOption (name : String) (value : Value)
  | setMode (mode : Value)
  | setLayout (layout : Value)
  | options
  | setConvert (convert : Option (Value → Value))
  | setTagOf (tagOf : Option (Field → Option String))
  | setAccept (accept : Option (Value → String → Except String Bool))
  | forget
  | report (layout : Option Value)
  | group
  | resetDefault
  | defaultIsOne

inductive Reply
  | nothing
  | truth (b : Bool)
  | comparison (b : Option Bool)
  | outcome (found : List Finding)
  /-- A compiled schema, numbered by its first appearance in the session. -/
  | compiled (number : Nat) (node : Node)
  | options (o : Options)
  | text (s : String)
  | groups (l : List (String × Nat))

/-- What tells compiled schemas apart: the default validator they come from, if it is one, and
their number there. -/
structure Stamp where
  generation : Option Nat
  serial : Nat
  deriving DecidableEq

structure Session where
  own : Validator
  default : Option Validator := none
  /-- How often the default validator has been dropped. -/
  generation : Nat := 0
  /-- The formats of all validators without their own. -/
  formats : Listing Checker := Checker.builtins
  handles : Listing Node := []
  seen : List Stamp := []
  /-- The findings of the last validation. -/
  last : List Finding := []

namespace Failure

/-- A member of an enumeration by its name, or the failure that says there is none. -/
def readMember {α : Type} (enumeration : String) (ofName? : String → Option α) (v : Value) :
    Except Failure α :=
  match v.string?.bind ofName? with
  | some a => .ok a
  | none => .error (.unknownMember enumeration v.literal)

def readMode : Value → Except Failure Mode := readMember "ValidationMode" Mode.ofName?
def readLayout : Value → Except Failure Layout := readMember "ErrorFormat" Layout.ofName?
def readKind : Value → Except Failure Kind := readMember "RuleKind" Kind.ofName?

end Failure

namespace Session

abbrev Answering := Work Session Failure

def validatorOf (s : Session) : Target → Validator
  | .own => s.own
  | .default => s.default.getD {}

def withValidator (s : Session) (v : Validator) : Target → Session
  | .own => { s with own := v }
  | .default => { s with default := some v }

/-- Work of one of the two validators. -/
def through {α : Type} (t : Target) (w : Listing Checker → Validating α) : Answering α := fun s =>
  let (x, v) := w s.formats (s.validatorOf t)
  (x, s.withValidator v t)

def stamp (s : Session) (t : Target) (serial : Nat) : Stamp :=
  match t with
  | .own => ⟨none, serial⟩
  | .default => ⟨some s.generation, serial⟩

/-- The number of a stamp, a new one if it is seen for the first time. -/
def number (s : Session) (st : Stamp) : Nat × Session :=
  match s.seen.idxOf? st with
  | some n => (n, s)
  | none => (s.seen.length, { s with seen := s.seen ++ [st] })

/-- Keeps the findings of a validation as the last ones. -/
def keep (w : Answering (List Finding)) : Answering Reply := do
  let found ← w
  .modify fun s => { s with last := found }
  return .outcome found

def quietly (w : Answering Unit) : Answering Reply := do
  w
  return .nothing

/-- Enters a format where the target keeps its own. -/
def enterFormat (t : Target) (name : String) (c : Option Checker) : Answering Unit := do
  let s ← .get
  match t, s.own.formats with
  | .own, some formats =>
    let formats ← .ofExcept (Validator.enterFormat name c formats)
    .set { s with own := { s.own with formats := some formats } }
  | _, _ =>
    let formats ← .ofExcept (Validator.enterFormat name c s.formats)
    .set { s with formats }

def setHooks (t : Target) (f : Hooks → Hooks) : Answering Reply :=
  quietly (through t fun _ => .modify fun v => { v with hooks := f v.hooks })

def compileAs (t : Target) (schema : Source) (handle : String) : Answering Reply := do
  let c ← through t fun _ => Validator.compile schema
  let s ← .get
  let (n, s) := s.number (s.stamp t c.serial)
  .set { s with handles := s.handles.put handle c.node }
  return .compiled n c.node

/-- Validates against what was compiled under a handle. -/
def validateHandle (t : Target) (value : Value) (handle root : String) : Answering Reply := do
  let s ← .get
  match s.handles.get? handle with
  | some node => keep (through t fun shared => Validator.validate shared value node root)
  | none => .fail (.breakdown ⟨"KeyError", Text.quoted handle⟩)

def perform (t : Target) : Request → Answering Reply
  | .validateText data schema =>
    keep (through t fun shared => Validator.validateText shared data schema)
  | .validateWith value schema root =>
    keep (through t fun shared => Validator.validateWith shared value schema root)
  | .compile schema handle => compileAs t schema handle
  | .validate value handle root => validateHandle t value handle root
  | .validateVariable value tag =>
    quietly (through t fun shared => Validator.validateVariable shared value tag)
  | .validateRecord value => quietly (through t fun shared => Validator.validateRecord shared value)
  | .enterRule name rule kind replace => do
    let kind ← .ofExcept (Failure.readKind kind)
    match t with
    | .own => quietly (through t fun _ => Validator.enterRule name rule kind replace)
    | .default => quietly (through t fun _ => Validator.enterRule name rule .custom false)
  | .hasRule name => do
    let s ← .get
    return .truth ((s.validatorOf t).rules.has name)
  | .clearRules => quietly (through t fun _ => Validator.clearRules)
  | .enterComparator name c replace =>
    quietly (through t fun _ => Validator.enterComparator name c (t == .own && replace))
  | .compare name a b => do
    let s ← .get
    return .comparison ((s.validatorOf t).compare? name a b)
  | .enterFormat name c => quietly (enterFormat t name c)
  | .setOption name value => quietly (through t fun _ => Validator.setOption name value)
  | .setMode mode => do
    let mode ← .ofExcept (Failure.readMode mode)
    quietly (through t fun _ => Validator.setMode mode)
  | .setLayout layout => do
    let layout ← .ofExcept (Failure.readLayout layout)
    quietly (through t fun _ => Validator.setLayout layout)
  | .options => do
    let s ← .get
    return .options (s.validatorOf t).options
  | .setConvert convert => setHooks t fun h => { h with convert }
  | .setTagOf tagOf => setHooks t fun h => { h with tagOf }
  | .setAccept accept => setHooks t fun h => { h with accept }
  | .forget => quietly (through t fun _ => Validator.forget)
  | .report layout => do
    let layout ← match layout with
      | none => pure none
      | some l => do
        let l ← .ofExcept (Failure.readLayout l)
        pure (some l)
    let s ← .get
    return .text ((s.validatorOf t).report s.last layout)
  | .group => do
    let s ← .get
    return .groups ((Report.groupByPath s.last).map fun g => (g.1, g.2.length))
  | .resetDefault => do
    .modify fun s => { s with default := none, generation := s.generation + 1 }
    return .nothing
  | .defaultIsOne => return .truth true

end Session

/-- A validator from options, of which some are given anew. -/
def Validator.make (base : Option (List (String × Value))) (overrides : List (String × Value))
    (formats : Option (Listing Checker)) : Except Failure Validator := do
  let options ← match base with
    | none => (({} : Settings).options overrides).mapError .options
    | some members => do
      let o ← (Options.ofMembers members).mapError .options
      (o.override overrides).mapError .options
  return { options, formats }

end Conform
