import Conform.Text.Printable

/-!
Quoted text: a string or byte string between quotes, with what cannot be shown written as escapes.
-/
namespace Conform.Text

def hexDigit (n : Nat) : Char := Nat.digitChar (n % 16)

/-- The last `width` hexadecimal digits of a number. -/
def hex : Nat → Nat → List Char
  | 0, _ => []
  | width + 1, n => hex width (n / 16) ++ [hexDigit n]

/-- Single quotes, unless the text has a single quote and no double one. -/
def quoteFor (cs : List Char) : Char :=
  if cs.contains '\'' && !cs.contains '"' then '"' else '\''

/-- One character between quotes: backslash, quote and controls are escaped, and characters that
cannot be shown are written by number in the shortest of three widths. -/
def escaped (quote c : Char) : List Char :=
  if c = quote || c = '\\' then ['\\', c]
  else if c = '\t' then ['\\', 't']
  else if c = '\n' then ['\\', 'n']
  else if c = '\r' then ['\\', 'r']
  else if isPrintable c then [c]
  else if c.toNat < 0x100 then ['\\', 'x'] ++ hex 2 c.toNat
  else if c.toNat < 0x10000 then ['\\', 'u'] ++ hex 4 c.toNat
  else ['\\', 'U'] ++ hex 8 c.toNat

def quoted (s : String) : String :=
  let quote := quoteFor s.toList
  String.ofList (quote :: (s.toList.flatMap (escaped quote) ++ [quote]))

/-- Bytes between quotes after a `b`: ASCII as characters, the rest by number. -/
def quotedBytes (data : List UInt8) : String :=
  let cs := data.map fun b => Char.ofNat b.toNat
  let quote := quoteFor cs
  let one (c : Char) : List Char :=
    if c = quote || c = '\\' || c = '\t' || c = '\n' || c = '\r' then escaped quote c
    else if 32 ≤ c.toNat && c.toNat < 127 then [c]
    else ['\\', 'x'] ++ hex 2 c.toNat
  String.ofList ('b' :: quote :: (cs.flatMap one ++ [quote]))

end Conform.Text
