import Conform.Logged

/-!
Log output: lines of a name, a level in its colour and a text. Only levels from a threshold up are
written.
-/
namespace Conform.Log

/-- The words for levels; `WARN` and `FATAL` are second words. -/
def levelWords : List (String × Int) :=
  [("CRITICAL", 50), ("ERROR", 40), ("WARNING", 30), ("INFO", 20), ("DEBUG", 10), ("NOTSET", 0),
    ("WARN", 30), ("FATAL", 50)]

def defaultLevel : Int := 20

/-- The level in force where none is set. -/
def fallbackLevel : Int := 30

/-- A capital letter. Besides ASCII, only the letters whose capital is in ASCII are changed. -/
def capital (c : Char) : Char :=
  if c = 'ı' then 'I' else if c = 'ſ' then 'S' else c.toUpper

/-- The level of a word in letters of either case, or the default. -/
def levelOfWord (word : String) : Int :=
  let capitals := String.ofList (word.toList.map capital)
  match levelWords.find? (·.1 == capitals) with
  | some (_, level) => level
  | none => defaultLevel

def levelName (level : Int) : String :=
  match levelWords.find? (·.2 == level) with
  | some (name, _) => name
  | none => s!"Level {level}"

/-- The number of the colour of a level, where it has one. -/
def colour? (level : Int) : Option Nat :=
  if level = 10 then some 36
  else if level = 20 then some 32
  else if level = 30 then some 33
  else if level = 40 then some 31
  else if level = 50 then some 35
  else none

def shownLevel (level : Int) : String :=
  match colour? level with
  | some n => s!"\x1b[{n}m{levelName level}\x1b[0m"
  | none => levelName level

def line (name : String) (message : LogLine) : String :=
  s!"{name} | {shownLevel message.level} | {message.text}"

/-- The least level that a logger of the given level writes. -/
def threshold (level : Int) : Int := if level = 0 then fallbackLevel else level

/-- What a logger writes of some messages. Those without a positive level are never written. -/
def output (name : String) (level : Int) (messages : List LogLine) : List String :=
  (messages.filter fun m => 0 < m.level && threshold level ≤ m.level).map (line name)

end Conform.Log
