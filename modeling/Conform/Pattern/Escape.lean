import Conform.Pattern.Source

/-!
Escapes: categories, control characters, characters by number or name, and group references.
-/
namespace Conform.Pattern

/-- Characters that may be written by name. -/
def namedCharacter? (name : String) : Option Nat :=
  let upper := name.toUpper
  let letterAfter (lead : String) (base : Nat) : Option Nat :=
    match (upper.dropPrefix? lead).map fun rest => rest.toString.toList with
    | some [c] => if 'A' ≤ c && c ≤ 'Z' then some (base + (c.toNat - 65)) else none
    | _ => none
  (letterAfter "LATIN SMALL LETTER " 97).or <| (letterAfter "LATIN CAPITAL LETTER " 65).or <|
    ([("SPACE", 32), ("EXCLAMATION MARK", 33), ("QUOTATION MARK", 34), ("NUMBER SIGN", 35),
      ("DOLLAR SIGN", 36), ("PERCENT SIGN", 37), ("AMPERSAND", 38), ("APOSTROPHE", 39),
      ("LEFT PARENTHESIS", 40), ("RIGHT PARENTHESIS", 41), ("ASTERISK", 42), ("PLUS SIGN", 43),
      ("COMMA", 44), ("HYPHEN-MINUS", 45), ("FULL STOP", 46), ("SOLIDUS", 47), ("DIGIT ZERO", 48),
      ("DIGIT ONE", 49), ("DIGIT TWO", 50), ("DIGIT THREE", 51), ("DIGIT FOUR", 52),
      ("DIGIT FIVE", 53), ("DIGIT SIX", 54), ("DIGIT SEVEN", 55), ("DIGIT EIGHT", 56),
      ("DIGIT NINE", 57), ("COLON", 58), ("SEMICOLON", 59), ("LESS-THAN SIGN", 60),
      ("EQUALS SIGN", 61), ("GREATER-THAN SIGN", 62), ("QUESTION MARK", 63),
      ("COMMERCIAL AT", 64), ("LEFT SQUARE BRACKET", 91), ("REVERSE SOLIDUS", 92),
      ("RIGHT SQUARE BRACKET", 93), ("CIRCUMFLEX ACCENT", 94), ("LOW LINE", 95),
      ("GRAVE ACCENT", 96), ("LEFT CURLY BRACKET", 123), ("VERTICAL LINE", 124),
      ("RIGHT CURLY BRACKET", 125), ("TILDE", 126), ("NO-BREAK SPACE", 160),
      ("SECTION SIGN", 167), ("DEGREE SIGN", 176), ("MICRO SIGN", 181), ("EN DASH", 0x2013),
      ("EM DASH", 0x2014), ("LEFT SINGLE QUOTATION MARK", 0x2018),
      ("RIGHT SINGLE QUOTATION MARK", 0x2019), ("LEFT DOUBLE QUOTATION MARK", 0x201c),
      ("RIGHT DOUBLE QUOTATION MARK", 0x201d), ("BULLET", 0x2022),
      ("HORIZONTAL ELLIPSIS", 0x2026), ("EURO SIGN", 0x20ac), ("SNOWMAN", 0x2603),
      ("GREEK SMALL LETTER ALPHA", 0x3b1), ("GREEK SMALL LETTER BETA", 0x3b2),
      ("GREEK SMALL LETTER PI", 0x3c0), ("GREEK SMALL LETTER OMEGA", 0x3c9)].find?
        (·.1 == upper)).map (·.2)

def isOctal (c : Char) : Bool := '0' ≤ c && c ≤ '7'

def isHex (c : Char) : Bool := c.isDigit || ('a' ≤ c && c ≤ 'f') || ('A' ≤ c && c ≤ 'F')

def digitOf (c : Char) : Nat :=
  if c.isDigit then c.toNat - 48 else if c.toNat < 97 then c.toNat - 55 else c.toNat - 87

def valueIn (base : Nat) (cs : List Char) : Nat := cs.foldl (fun n c => n * base + digitOf c) 0

def category? (c : Char) : Option Item :=
  match c with
  | 'd' => some (.category .digit false)
  | 'D' => some (.category .digit true)
  | 's' => some (.category .space false)
  | 'S' => some (.category .space true)
  | 'w' => some (.category .word false)
  | 'W' => some (.category .word true)
  | _ => none

def anchor? (c : Char) : Option Anchor :=
  match c with
  | 'A' => some .textStart
  | 'b' => some .boundary
  | 'B' => some .inside
  | 'Z' => some .textEnd
  | _ => none

/-- Control characters and the backslash, by the letter after the backslash. -/
def control? (c : Char) : Option Nat :=
  match c with
  | 'a' => some 7
  | 'b' => some 8
  | 'f' => some 12
  | 'n' => some 10
  | 'r' => some 13
  | 't' => some 9
  | 'v' => some 11
  | '\\' => some 92
  | _ => none

namespace Read

/-- Fails at the start of an escape of the given length that has just been read. -/
def badEscape {α : Type} (cs : List Char) : Read α := fail (.badEscape (String.ofList cs)) cs.length

/-- A character by a fixed count of hexadecimal digits. -/
def hexEscape (c : Char) (count : Nat) : Read Nat := do
  let digits ← takeWhile isHex count
  let text := '\\' :: c :: digits
  if digits.length ≠ count then fail (.incompleteEscape (String.ofList text)) text.length
  else if 0x110000 ≤ valueIn 16 digits then badEscape text
  else return valueIn 16 digits

/-- A character by its name in braces. -/
def namedEscape : Read Nat := do
  if !(← takeIf '\x7b') then fail .missingBrace 0
  else
    let r ← get
    let name ← takeName '\x7d' "character name" (r.source.rest.length + 2) []
    match namedCharacter? name with
    | some n => return n
    | none => fail (.undefinedCharacter name) (name.length + 4)

/-- The escapes by number or name that sets and sequences share. -/
def numericEscape? (c : Char) : Option (Read Nat) :=
  match c with
  | 'x' => some (hexEscape c 2)
  | 'u' => some (hexEscape c 4)
  | 'U' => some (hexEscape c 8)
  | 'N' => some namedEscape
  | _ => none

/-- An escape inside a set. -/
def setEscape (c : Char) : Read Item := do
  if let some n := control? c then return .literal n
  if let some item := category? c then return item
  if let some read := numericEscape? c then return .literal (← read)
  if isOctal c then
    let digits := c :: (← takeWhile isOctal 2)
    if 0o377 < valueIn 8 digits then
      fail (.octalOutOfRange (String.ofList ('\\' :: digits))) (digits.length + 1)
    else return .literal (valueIn 8 digits)
  else if c.isAlphanum then badEscape ['\\', c]
  else return .literal c.toNat

/-- A reference to a group by number, with its width; only closed groups may be referred to, and in
a lookbehind only those from before it. -/
def groupReference (group back : Nat) : Read Piece := do
  let r ← get
  match r.width? group with
  | none => fail .openGroup back
  | some (least, most) =>
    match r.lookbehind with
    | some known => if known ≤ group then fail .groupOfSameLookbehind 0 else pure ()
    | none => pure ()
    return .reference group least most

/-- An escape of digits: three octal ones make a character, otherwise they name a group. -/
def digitEscape (c : Char) : Read Piece := do
  let mut digits := [c]
  if let some d ← nextChar? then
    if d.isDigit then
      let _ ← take
      digits := [c, d]
      if let some e ← nextChar? then
        if isOctal c && isOctal d && isOctal e then
          let _ ← take
          let all := [c, d, e]
          if 0o377 < valueIn 8 all then
            fail (.octalOutOfRange (String.ofList ('\\' :: all))) 4
          else return .literal (valueIn 8 all)
  let group := valueIn 10 digits
  if group < (← get).nextGroup then groupReference group (digits.length + 1)
  else fail (.invalidReference group) digits.length

/-- An escape in a sequence. -/
def pieceEscape (c : Char) : Read Piece := do
  if let some item := category? c then return .set false [item]
  if let some a := anchor? c then return .anchor a
  if let some n := control? c then return .literal n
  if let some read := numericEscape? c then return .literal (← read)
  if c = '0' then return .literal (valueIn 8 (← takeWhile isOctal 2))
  else if c.isDigit then digitEscape c
  else if c.isAlpha then badEscape ['\\', c]
  else return .literal c.toNat

end Read

end Conform.Pattern
