import Conform.Value.Literal

/-!
JSON text of values in ASCII. `render` writes every value, those JSON does not know as the string
of their text; `canonical?` writes sorted and without blanks, and refuses those.
-/
namespace Conform.Json

/-- An escape by number, with a surrogate pair above the basic plane. -/
def unicodeEscape (n : Nat) : List Char :=
  if n < 0x10000 then ['\\', 'u'] ++ Text.hex 4 n
  else
    let m := n - 0x10000
    ['\\', 'u'] ++ Text.hex 4 (0xd800 + m / 0x400) ++ ['\\', 'u'] ++ Text.hex 4 (0xdc00 + m % 0x400)

def escapeChar (c : Char) : List Char :=
  if c = '"' then ['\\', '"']
  else if c = '\\' then ['\\', '\\']
  else if c = '\n' then ['\\', 'n']
  else if c = '\r' then ['\\', 'r']
  else if c = '\t' then ['\\', 't']
  else if c = '\x08' then ['\\', 'b']
  else if c = '\x0c' then ['\\', 'f']
  else if 32 ≤ c.toNat && c.toNat < 127 then [c]
  else unicodeEscape c.toNat

/-- A string between double quotes. -/
def quote (s : String) : String :=
  String.ofList ('"' :: (s.toList.flatMap escapeChar ++ ['"']))

def doubleText (x : Binary64) : String :=
  if x.isNaN then "NaN"
  else if x.isInfinite then (if x.negative then "-Infinity" else "Infinity")
  else x.text

mutual

def render : Value → String
  | .null => "null"
  | .bool b => if b then "true" else "false"
  | .number (.integer n) => toString n
  | .number (.double x) => doubleText x
  | .string s => quote s
  | .array _ xs => "[" ++ ", ".intercalate (renderItems xs) ++ "]"
  | .object _ ms => "\x7b" ++ ", ".intercalate (renderMembers ms) ++ "\x7d"
  | v => quote v.display

def renderItems : List Value → List String
  | [] => []
  | x :: xs => render x :: renderItems xs

def renderMembers : List (String × Value) → List String
  | [] => []
  | (n, v) :: ms => (quote n ++ ": " ++ render v) :: renderMembers ms

end

/-- Members by name, in order of code points. -/
def sortByName (ms : List (String × String)) : List (String × String) :=
  ms.mergeSort fun a b => a.1 ≤ b.1

mutual

def canonical? : Value → Option String
  | .null => some "null"
  | .bool b => some (if b then "true" else "false")
  | .number (.integer n) => some (toString n)
  | .number (.double x) => some (doubleText x)
  | .string s => some (quote s)
  | .array _ xs => (canonicalItems? xs).map fun ts => "[" ++ ",".intercalate ts ++ "]"
  | .object .mutable ms => (canonicalMembers? ms).map fun ts =>
    "\x7b" ++ ",".intercalate ((sortByName ts).map fun t => quote t.1 ++ ":" ++ t.2) ++ "\x7d"
  | _ => none

def canonicalItems? : List Value → Option (List String)
  | [] => some []
  | x :: xs => do return (← canonical? x) :: (← canonicalItems? xs)

def canonicalMembers? : List (String × Value) → Option (List (String × String))
  | [] => some []
  | (n, v) :: ms => do return (n, ← canonical? v) :: (← canonicalMembers? ms)

end

end Conform.Json
