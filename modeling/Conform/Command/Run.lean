import Conform.Command.Arguments
import Conform.Console.Table
import Conform.Validator.Basic
import Conform.Value.Truth

/-!
The commands: one validates a data file against a schema file, the other compiles a schema file.
They end with a status: zero if all is well, one if the data is invalid, two if the files or the
arguments cannot be processed.
-/
namespace Conform.Command

/-- What a path leads to. -/
inductive Found
  | nothing
  | directory
  | file (data : List UInt8)

/-- How a run ends. A breakdown is one that nothing was prepared for. -/
structure Outcome where
  status : Nat
  output : List String := []
  breakdown : Option Breakdown := none
  log : List LogLine := []

def program : String := "cli"

def consoleWidth : Nat := 200

def helpSwitch : Switch := ⟨"--help", none, .showHelp⟩

def groupSwitches : List Switch :=
  [⟨"--version", none, .showVersion⟩, ⟨"--verbose", some "-v", .flag⟩, helpSwitch]

def modeSwitch : Switch :=
  ⟨"--mode", some "-m", .choice [Mode.strict.name, Mode.loose.name, Mode.warn.name]⟩

def formatSwitch : Switch :=
  ⟨"--format", some "-f", .choice ["table", Layout.simple.name, Layout.detailed.name,
    Layout.json.name]⟩

def stopSwitch : Switch := ⟨"--stop-on-first-error", none, .flag⟩

inductive Name
  | validate
  | check

def Name.text : Name → String
  | .validate => "validate"
  | .check => "check"

def Name.ofText? (s : String) : Option Name := [Name.validate, .check].find? (·.text == s)

def Name.switches : Name → List Switch
  | .validate => [modeSwitch, formatSwitch, stopSwitch, helpSwitch]
  | .check => [modeSwitch, helpSwitch]

def Name.arguments : Name → List String
  | .validate => ["SCHEMA_FILE", "DATA_FILE"]
  | .check => ["SCHEMA_FILE"]

def groupUsage : String := program ++ " [OPTIONS] COMMAND [ARGS]..."

def Name.usage (n : Name) : String :=
  s!"{program} {n.text} [OPTIONS] " ++ " ".intercalate n.arguments

def groupPath : String := program

def Name.path (n : Name) : String := program ++ " " ++ n.text

/-- The end of a run whose arguments are wrong. -/
def misused (usage path : String) (f : UsageFault) : Outcome :=
  let lead := if f.showsUsage then
      ["Usage: " ++ usage, s!"Try '{path} --help' for help.", ""]
    else []
  { status := 2, output := lead ++ ["Error: " ++ f.message] }

def errorLines (message : String) : List String :=
  Console.printText consoleWidth ("Error: ".toList ++ Console.shown message)

/-- The end of a run that failed, with what was logged before. -/
def failed (log : List LogLine) : Failure → Outcome
  | .breakdown b => { status := 1, breakdown := some b, log }
  | f => { status := 2, output := errorLines f.message, log }

def undecodable (e : Text.DecodeError) : Outcome :=
  { status := 1, breakdown := some ⟨"UnicodeDecodeError", e.message⟩ }

def readText (data : List UInt8) : Except Outcome String :=
  match Text.decodeUtf8 data with
  | .ok cs => .ok (String.ofList (Text.plainLineEnds cs))
  | .error e => .error (undecodable e)

/-- The files behind the arguments of a command, in order. -/
def openFiles (look : String → Found) : List String → List String →
    Except UsageFault (List (String × List UInt8))
  | [], _ => .ok []
  | name :: _, [] => .error (.missingArgument name)
  | name :: names, path :: paths =>
    match look path with
    | .nothing => .error (.noSuchFile name path)
    | .directory => .error (.isDirectory name path)
    | .file data => (openFiles look names paths).map ((path, data) :: ·)

/-- The last part of a path. -/
def fileName (path : String) : String :=
  String.ofList (path.toList.reverse.takeWhile (· != '/')).reverse

def validatorFor (p : Parsed) : Validator :=
  let mode := ((p.value? modeSwitch.long).bind Mode.ofName?).getD .strict
  { options := { mode, stopAtFirst := p.has stopSwitch.long } }

/-- The findings as a table, or a text that there are none. -/
def tableOf (found : List Finding) : List String :=
  if found.isEmpty then Console.boxed "✓ Valid"
  else
    Console.Table.print consoleWidth
      { title := "Validation errors", headers := ["Path", "Keyword", "Message"],
        rows := found.map fun f => [f.path.text, f.tag, f.message] }

def findingsText (layout : Layout) (found : List Finding) : String :=
  if found.isEmpty then
    match layout with
    | .json => "[]"
    | _ => "valid"
  else Report.write layout found

def outputOf (format : Option String) (found : List Finding) : List String :=
  match format.bind Layout.ofName? with
  | some layout => [findingsText layout found]
  | none => tableOf found

/-- Validates data against a schema, both as they stand in their files. Data is decoded first. -/
def runValidate (p : Parsed) (schema data : List UInt8) : Outcome :=
  match readText data with
  | .error o => o
  | .ok dataText => match readText schema with
    | .error o => o
    | .ok schemaText =>
      let work := Validator.validateText Checker.builtins (.string dataText)
        (.value (.string schemaText))
      let (x, _) := work (validatorFor p)
      match x.result with
      | .error f => failed x.log f
      | .ok found =>
        { status := if found.isEmpty then 0 else 1,
          output := outputOf (p.value? formatSwitch.long) found, log := x.log }

/-- The name under which a compiled schema is reported: its title, if it has one that says
something. -/
def titleOf (path : String) (n : Node) : Except Breakdown String :=
  match n.title? with
  | some (.string s) => .ok (if s.isEmpty then fileName path else s)
  | some v =>
    if v.isTruthy then .error ⟨"TypeError", "expected string or bytes-like object, got '" ++
      v.className ++ "'"⟩
    else .ok (fileName path)
  | none => .ok (fileName path)

def runCheck (p : Parsed) (path : String) (schema : List UInt8) : Outcome :=
  match readText schema with
  | .error o => o
  | .ok schemaText =>
    let (x, _) := Validator.compile (.value (.string schemaText)) (validatorFor p)
    match x.result with
    | .error f => failed x.log f
    | .ok c => match titleOf path c.node with
      | .error b => { status := 1, breakdown := some b, log := x.log }
      | .ok title =>
        let tail := s!": {c.node.bindings.length} top-level keyword(s) compiled"
        let shown := "✓ ".toList ++ Console.shown title ++ tail.toList
        { status := 0, output := Console.printText consoleWidth shown, log := x.log }

def runFiles (n : Name) (p : Parsed) (files : List (String × List UInt8)) : Outcome :=
  match n, files with
  | .validate, [(_, schema), (_, data)] => runValidate p schema data
  | .check, [(path, schema)] => runCheck p path schema
  | _, _ => { status := 2 }

/-- Runs one command with its own arguments. Options are checked before files, and files before
what is left over. -/
def runCommand (look : String → Found) (n : Name) (args : List String) : Outcome :=
  let misused := misused n.usage n.path
  match parse n.switches true args with
  | .error f => misused f
  | .ok p =>
    if p.has helpSwitch.long then { status := 0, output := ["Usage: " ++ n.usage] }
    else match p.checkChoices with
      | .error f => misused f
      | .ok () => match openFiles look n.arguments p.rest with
        | .error f => misused f
        | .ok files => match p.rest.drop n.arguments.length with
          | [] => runFiles n p files
          | extra => misused (.extraArguments extra)

/-- Runs the program with its arguments and a way to look at paths. -/
def run (look : String → Found) (args : List String) : Outcome :=
  let misused := misused groupUsage groupPath
  match parse groupSwitches false args with
  | .error f => misused f
  | .ok p =>
    if args.isEmpty then { status := 2, output := ["Usage: " ++ groupUsage] }
    else if p.has helpSwitch.long then { status := 0, output := ["Usage: " ++ groupUsage] }
    else if p.has "--version" then
      { status := 0, output := ["schema-validator, version 0.1.0"] }
    else match p.rest with
      | [] => misused .missingCommand
      | name :: args => match Name.ofText? name with
        | some n => runCommand look n args
        | none =>
          misused (.noSuchCommand name (similarNames name [Name.validate.text, Name.check.text]))

end Conform.Command
