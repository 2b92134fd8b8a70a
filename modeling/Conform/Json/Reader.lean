import Conform.Text.Encoding
import Conform.Value.Basic

/-!
Reading JSON text. Integers are unbounded, other numerals are doubles, the three words for values
without digits are accepted, and a repeated name keeps its first place and last value.
-/
namespace Conform.Json

/-- What is wrong with a text that is not JSON. -/
inductive Fault
  | value
  | extraData
  | propertyName
  | colon
  | comma
  | controlCharacter
  | unterminatedString
  | escape
  | unicodeEscape
  | byteOrderMark
  deriving DecidableEq

def Fault.text : Fault → String
  | .value => "Expecting value"
  | .extraData => "Extra data"
  | .propertyName => "Expecting property name enclosed in double quotes"
  | .colon => "Expecting ':' delimiter"
  | .comma => "Expecting ',' delimiter"
  | .controlCharacter => "Invalid control character at"
  | .unterminatedString => "Unterminated string starting at"
  | .escape => "Invalid \\escape"
  | .unicodeEscape => "Invalid \\uXXXX escape"
  | .byteOrderMark => "Unexpected UTF-8 BOM (decode using utf-8-sig)"

/-- A fault and the place of the character it was found at, from zero. -/
structure Misread where
  fault : Fault
  position : Nat
  deriving DecidableEq

/-- The line and column of a position, both from one. -/
def lineAndColumn (cs : List Char) (position : Nat) : Nat × Nat :=
  let before := cs.take position
  (before.count '\n' + 1, (before.reverse.takeWhile (· != '\n')).length + 1)

def Misread.message (m : Misread) (cs : List Char) : String :=
  let (line, column) := lineAndColumn cs m.position
  s!"{m.fault.text}: line {line} column {column} (char {m.position})"

/-- What a step read: a result, the rest of the text and its position. -/
structure Read (α : Type) where
  result : α
  rest : List Char
  position : Nat

def isSpace (c : Char) : Bool := c == ' ' || c == '\t' || c == '\n' || c == '\r'

/-- Passes over blanks. -/
def skipSpace : List Char → Nat → List Char × Nat
  | c :: cs, p => if isSpace c then skipSpace cs (p + 1) else (c :: cs, p)
  | [], p => ([], p)

def hexValue? (c : Char) : Option Nat :=
  if c.isDigit then some (c.toNat - 48)
  else if 'a' ≤ c && c ≤ 'f' then some (c.toNat - 87)
  else if 'A' ≤ c && c ≤ 'F' then some (c.toNat - 55)
  else none

/-- The number written by four hexadecimal digits. -/
def hexQuad? (a b c d : Char) : Option Nat := do
  return (← hexValue? a) * 4096 + (← hexValue? b) * 256 + (← hexValue? c) * 16 + (← hexValue? d)

def escapeValue? (c : Char) : Option Char :=
  if c = '"' || c = '\\' || c = '/' then some c
  else if c = 'b' then some '\x08'
  else if c = 'f' then some '\x0c'
  else if c = 'n' then some '\n'
  else if c = 'r' then some '\r'
  else if c = 't' then some '\t'
  else none

/-- Reads a string after its opening quote, which stands at `start`. An escape by number needs a
character after it; a high surrogate joins a low one that follows, and any other is replaced. -/
def readString (start : Nat) : List Char → Nat → List Char → Except Misread (Read String)
  | [], _, _ => .error ⟨.unterminatedString, start⟩
  | '"' :: cs, p, acc => .ok ⟨String.ofList acc.reverse, cs, p + 1⟩
  | '\\' :: 'u' :: a :: b :: c :: d :: '\\' :: 'u' :: e :: f :: g :: h :: x :: cs, p, acc =>
    match hexQuad? a b c d with
    | none => .error ⟨.unicodeEscape, p + 1⟩
    | some n =>
      if 0xd800 ≤ n && n < 0xdc00 then
        match hexQuad? e f g h with
        | none => .error ⟨.unicodeEscape, p + 7⟩
        | some m =>
          if 0xdc00 ≤ m && m < 0xe000 then
            let joined := Char.ofNat (0x10000 + (n - 0xd800) * 0x400 + (m - 0xdc00))
            readString start (x :: cs) (p + 12) (joined :: acc)
          else
            readString start ('\\' :: 'u' :: e :: f :: g :: h :: x :: cs) (p + 6)
              (Text.charOf n :: acc)
      else
        readString start ('\\' :: 'u' :: e :: f :: g :: h :: x :: cs) (p + 6) (Text.charOf n :: acc)
  | '\\' :: 'u' :: a :: b :: c :: d :: x :: cs, p, acc =>
    match hexQuad? a b c d with
    | none => .error ⟨.unicodeEscape, p + 1⟩
    | some n => readString start (x :: cs) (p + 6) (Text.charOf n :: acc)
  | '\\' :: 'u' :: _, p, _ => .error ⟨.unicodeEscape, p + 1⟩
  | ['\\'], _, _ => .error ⟨.unterminatedString, start⟩
  | '\\' :: c :: cs, p, acc =>
    match escapeValue? c with
    | none => .error ⟨.escape, p⟩
    | some d => readString start cs (p + 2) (d :: acc)
  | c :: cs, p, acc =>
    if c.toNat ≤ 0x1f then .error ⟨.controlCharacter, p⟩ else readString start cs (p + 1) (c :: acc)

/-- A run of digits: its value and length after those already read, and the rest. -/
def readDigits : Nat → Nat → List Char → Nat × Nat × List Char
  | value, count, c :: cs =>
    if c.isDigit then readDigits (value * 10 + (c.toNat - 48)) (count + 1) cs
    else (value, count, c :: cs)
  | value, count, [] => (value, count, [])

/-- The exponent of a numeral, if one with digits follows: its value and length. -/
def readExponent : List Char → Int × Nat × List Char
  | c :: cs =>
    if c = 'e' || c = 'E' then
      let (negative, signLength, digits) := match cs with
        | '-' :: r => (true, 1, r)
        | '+' :: r => (false, 1, r)
        | r => (false, 0, r)
      match readDigits 0 0 digits with
      | (_, 0, _) => (0, 0, c :: cs)
      | (value, count, rest) =>
        ((if negative then -(value : Int) else value), 1 + signLength + count, rest)
    else (0, 0, c :: cs)
  | [] => (0, 0, [])

/-- Reads a numeral without its sign. A fraction or exponent makes it a double. -/
def readNumeral (negative : Bool) (cs : List Char) (p : Nat) : Option (Read Value) :=
  let whole : Option (Nat × Nat × List Char) := match cs with
    | '0' :: r => some (0, 1, r)
    | c :: _ => if c.isDigit then some (readDigits 0 0 cs) else none
    | [] => none
  whole.map fun (value, count, rest) =>
    let (digits, places, rest') := match rest with
      | '.' :: c :: r => if c.isDigit then readDigits value 0 (c :: r) else (value, 0, rest)
      | _ => (value, 0, rest)
    let fractionLength := if places = 0 then 0 else places + 1
    let (exponent, exponentLength, rest'') := readExponent rest'
    let p := p + count + fractionLength + exponentLength
    if fractionLength = 0 && exponentLength = 0 then
      ⟨.ofInt (if negative then -(value : Int) else value), rest'', p⟩
    else
      ⟨.number (.double (Binary64.ofDecimal negative digits (exponent - places))), rest'', p⟩

/-- The rest after a word, if the text starts with it. -/
def afterWord? : List Char → List Char → Option (List Char)
  | [], cs => some cs
  | w :: ws, c :: cs => if w = c then afterWord? ws cs else none
  | _ :: _, [] => none

/-- The words that stand for values. -/
def words : List (List Char × Value) :=
  [("null".toList, .null), ("true".toList, .bool true), ("false".toList, .bool false),
    ("NaN".toList, .number (.double Binary64.nan)),
    ("Infinity".toList, .number (.double (Binary64.infinity false))),
    ("-Infinity".toList, .number (.double (Binary64.infinity true)))]

def readWord? (p : Nat) (cs : List Char) : List (List Char × Value) → Option (Read Value)
  | [] => none
  | (w, v) :: ws => match afterWord? w cs with
    | some rest => some ⟨v, rest, p + w.length⟩
    | none => readWord? p cs ws

mutual

/-- Reads one value. Each call eats a character before the next, so twice the length is fuel
enough. -/
def readValue : Nat → List Char → Nat → Except Misread (Read Value)
  | 0, _, p => .error ⟨.value, p⟩
  | fuel + 1, cs, p =>
    match cs with
    | '"' :: r => do
      let s ← readString p r (p + 1) []
      return ⟨.string s.result, s.rest, s.position⟩
    | '[' :: r =>
      let (r, q) := skipSpace r (p + 1)
      match r with
      | ']' :: r => .ok ⟨.list [], r, q + 1⟩
      | _ => readItems fuel r q []
    | '\x7b' :: r =>
      let (r, q) := skipSpace r (p + 1)
      match r with
      | '\x7d' :: r => .ok ⟨.object .mutable [], r, q + 1⟩
      | _ => readMembers fuel r q []
    | _ =>
      match readWord? p cs words with
      | some read => .ok read
      | none =>
        let numeral := match cs with
          | '-' :: r => readNumeral true r (p + 1)
          | _ => readNumeral false cs p
        match numeral with
        | some read => .ok read
        | none => .error ⟨.value, p⟩

/-- Reads the items of an array up to its closing bracket. -/
def readItems : Nat → List Char → Nat → List Value → Except Misread (Read Value)
  | 0, _, p, _ => .error ⟨.value, p⟩
  | fuel + 1, cs, p, acc => do
    let item ← readValue fuel cs p
    let (r, q) := skipSpace item.rest item.position
    match r with
    | ']' :: r => return ⟨.list (item.result :: acc).reverse, r, q + 1⟩
    | ',' :: r =>
      let (r, q) := skipSpace r (q + 1)
      readItems fuel r q (item.result :: acc)
    | _ => .error ⟨.comma, q⟩

/-- Reads the members of an object up to its closing brace. -/
def readMembers : Nat → List Char → Nat → List (String × Value) → Except Misread (Read Value)
  | 0, _, p, _ => .error ⟨.value, p⟩
  | fuel + 1, cs, p, acc =>
    match cs with
    | '"' :: r => do
      let name ← readString p r (p + 1) []
      let (r, q) := skipSpace name.rest name.position
      match r with
      | ':' :: r =>
        let (r, q) := skipSpace r (q + 1)
        let value ← readValue fuel r q
        let members := Listing.put name.result value.result acc
        let (r, q) := skipSpace value.rest value.position
        match r with
        | '\x7d' :: r => return ⟨.object .mutable members, r, q + 1⟩
        | ',' :: r =>
          let (r, q) := skipSpace r (q + 1)
          readMembers fuel r q members
        | _ => .error ⟨.comma, q⟩
      | _ => .error ⟨.colon, q⟩
    | _ => .error ⟨.propertyName, p⟩

end

/-- Reads a whole text as one value between blanks. -/
def parseChars (cs : List Char) : Except Misread Value := do
  let (start, p) := skipSpace cs 0
  let read ← readValue (2 * cs.length + 2) start p
  let (rest, q) := skipSpace read.rest read.position
  if rest.isEmpty then return read.result else .error ⟨.extraData, q⟩

/-- Reads a text that must not start with a byte order mark. -/
def parseUnmarked : List Char → Except Misread Value
  | '\ufeff' :: _ => .error ⟨.byteOrderMark, 0⟩
  | cs => parseChars cs

def parse (s : String) : Except Misread Value := parseUnmarked s.toList

end Conform.Json
