import Conform.Command.Similar
import Conform.Text.Quoted

/-!
Command-line arguments: options with two dashes or one, in any order with the rest, and what can be
wrong with them.
-/
namespace Conform.Command

/-- What an option does with what follows it. -/
inductive Effect
  | flag
  /-- Takes one of some words. -/
  | choice (words : List String)
  | showHelp
  | showVersion

structure Switch where
  long : String
  short : Option String := none
  effect : Effect

def Switch.takesValue (s : Switch) : Bool :=
  match s.effect with
  | .choice _ => true
  | _ => false

inductive UsageFault
  | noSuchOption (name : String) (similar : List String)
  | valueWanted (name : String)
  | noValueWanted (name : String)
  | notAChoice (s : Switch) (value : String) (words : List String)
  | missingArgument (name : String)
  | noSuchFile (name path : String)
  | isDirectory (name path : String)
  | extraArguments (args : List String)
  | missingCommand
  | noSuchCommand (name : String) (similar : List String)

def suggestion : List String → String
  | [] => ""
  | [name] => s!" Did you mean {Text.quoted name}?"
  | names =>
    let sorted := names.mergeSort fun a b => a ≤ b
    " (Did you mean one of: " ++ ", ".intercalate (sorted.map Text.quoted) ++ "?)"

def Switch.hint (s : Switch) : String :=
  " / ".intercalate ((s.long :: s.short.toList).map fun n => "'" ++ n ++ "'")

def UsageFault.message : UsageFault → String
  | .noSuchOption name similar => s!"No such option {Text.quoted name}." ++ suggestion similar
  | .valueWanted name => s!"Option {Text.quoted name} requires an argument."
  | .noValueWanted name => s!"Option {Text.quoted name} does not take a value."
  | .notAChoice s value words =>
    s!"Invalid value for {s.hint}: {Text.quoted value} is not one of " ++
      ", ".intercalate (words.map Text.quoted) ++ "."
  | .missingArgument name => s!"Missing argument '{name}'."
  | .noSuchFile name path =>
    s!"Invalid value for '{name}': File {Text.quoted path} does not exist."
  | .isDirectory name path =>
    s!"Invalid value for '{name}': File {Text.quoted path} is a directory."
  | .extraArguments args =>
    let plural := if args.length = 1 then "" else "s"
    let shown := " ".intercalate args
    s!"Got unexpected extra argument{plural} ({shown})"
  | .missingCommand => "Missing command."
  | .noSuchCommand name similar => s!"No such command {Text.quoted name}." ++ suggestion similar

/-- Whether the way to use the command is told with the fault. -/
def UsageFault.showsUsage : UsageFault → Bool
  | .valueWanted _ | .noValueWanted _ => false
  | _ => true

/-- An option as given: which one, and the value that came with it. -/
structure Given where
  switch : Switch
  value : Option String := none

/-- What the arguments say: options in order, and everything else in order. -/
structure Parsed where
  given : List Given := []
  rest : List String := []

def Parsed.addGiven (p : Parsed) (g : Given) : Parsed := { p with given := g :: p.given }

def Parsed.addRest (p : Parsed) (arg : String) : Parsed := { p with rest := arg :: p.rest }

/-- What an option does to the arguments after it: it may take its value from them. -/
def takeValue (s : Switch) (name : String) (attached : Option String) (args : List String) :
    Except UsageFault (Given × List String) :=
  if s.takesValue then
    match attached, args with
    | some v, _ => .ok (⟨s, some v⟩, args)
    | none, v :: args => .ok (⟨s, some v⟩, args)
    | none, [] => .error (.valueWanted name)
  else match attached with
    | some _ => .error (.noValueWanted name)
    | none => .ok (⟨s, none⟩, args)

/-- A run of short options after one dash; the last may have its value attached. -/
def readShort (switches : List Switch) : List Char → List String →
    Except UsageFault (List Given × List String)
  | [], args => .ok ([], args)
  | c :: cs, args =>
    let name := String.ofList ['-', c]
    match switches.find? (·.short == some name) with
    | none => .error (.noSuchOption name [])
    | some s =>
      if s.takesValue then
        let attached := if cs.isEmpty then none else some (String.ofList cs)
        (takeValue s name attached args).map fun (g, args) => ([g], args)
      else (readShort switches cs args).map fun (gs, args) => (⟨s, none⟩ :: gs, args)

/-- One argument that starts with a dash. -/
def readSwitch (switches : List Switch) (arg : String) (args : List String) :
    Except UsageFault (List Given × List String) :=
  let cs := arg.toList
  let name := String.ofList (cs.takeWhile (· != '='))
  let attached := match cs.dropWhile (· != '=') with
    | _ :: value => some (String.ofList value)
    | [] => none
  match switches.find? (·.long == name) with
  | some s => (takeValue s name attached args).map fun (g, args) => ([g], args)
  | none => match cs with
    | '-' :: '-' :: _ => .error (.noSuchOption name (similarNames name (switches.map (·.long))))
    | _ => readShort switches (cs.drop 1) args

/-- Reads all arguments. Two dashes alone end the options; `mixed` says whether options may also
come after other arguments. The first argument bounds the number of steps. -/
def readAll (switches : List Switch) (mixed : Bool) : Nat → Parsed → List String →
    Except UsageFault Parsed
  | 0, p, args => .ok { p with rest := args.reverse ++ p.rest }
  | _, p, [] => .ok p
  | n + 1, p, arg :: args =>
    if arg = "--" then .ok { p with rest := args.reverse ++ p.rest }
    else if arg.startsWith "-" && arg.length > 1 then
      match readSwitch switches arg args with
      | .error f => .error f
      | .ok (gs, args) => readAll switches mixed n (gs.foldl Parsed.addGiven p) args
    else if mixed then readAll switches mixed n (p.addRest arg) args
    else .ok { p with rest := (arg :: args).reverse ++ p.rest }

def parse (switches : List Switch) (mixed : Bool) (args : List String) : Except UsageFault Parsed :=
  (readAll switches mixed args.length {} args).map fun p => ⟨p.given.reverse, p.rest.reverse⟩

namespace Parsed

/-- Options given, each once, in order of their first use. -/
def switchesUsed (p : Parsed) : List Switch :=
  p.given.foldl (fun l g => if l.any (·.long == g.switch.long) then l else l ++ [g.switch]) []

/-- The last value given for an option. -/
def value? (p : Parsed) (long : String) : Option String :=
  (p.given.reverse.find? (·.switch.long == long)).bind (·.value)

def has (p : Parsed) (long : String) : Bool := p.given.any (·.switch.long == long)

/-- The first option whose value is none of its words. -/
def checkChoices (p : Parsed) : Except UsageFault Unit :=
  p.switchesUsed.forM fun s =>
    match s.effect, p.value? s.long with
    | .choice words, some v =>
      if words.contains v then .ok () else .error (.notAChoice s v words)
    | _, _ => .ok ()

end Parsed

end Conform.Command
