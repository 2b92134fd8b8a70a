import Conform.Number.Basic
import Conform.Text.Blank
import Conform.Text.Digit

/-!
Reading numbers from free text: blanks around, digits of any script, single underscores between
digits. A whole number is tried before a double.
-/
namespace Conform.Number

/-- Replaces digits of any script by ASCII ones, after dropping the blanks around. -/
def plainDigits (cs : List Char) : List Char :=
  (Text.strip cs).map fun c => match Text.digitValue? c with
    | some n => Char.ofNat (48 + n)
    | none => c

/-- The text without underscores, each of which must stand between two digits. -/
def dropUnderscores? : Option Char → List Char → Option (List Char)
  | _, [] => some []
  | last, '_' :: cs =>
    if last.any Char.isDigit && cs.head?.any Char.isDigit then dropUnderscores? (some '_') cs
    else none
  | _, c :: cs => (dropUnderscores? (some c) cs).map (c :: ·)

def splitSign : List Char → Bool × List Char
  | '-' :: cs => (true, cs)
  | '+' :: cs => (false, cs)
  | cs => (false, cs)

/-- The value of a nonempty run of digits that is all there is. -/
def digitsOnly? (cs : List Char) : Option Nat :=
  match Decimal.takeDigits 0 cs with
  | (_, 0, _) => none
  | (value, _, []) => some value
  | _ => none

def readInteger? (text : String) : Option Int := do
  let cs ← dropUnderscores? none (plainDigits text.toList)
  let (negative, cs) := splitSign cs
  let n ← digitsOnly? cs
  return if negative then -(n : Int) else n

def readDouble? (text : String) : Option Binary64 := do
  let cs ← dropUnderscores? none (plainDigits text.toList)
  let (negative, cs) := splitSign cs
  let word := String.ofList (cs.map Char.toLower)
  if word = "inf" || word = "infinity" then some (Binary64.infinity negative)
  else if word = "nan" then some { Binary64.nan with negative }
  else match Decimal.read? (String.ofList cs) with
    | some (.finite false c e) =>
      if cs.head?.any fun c => c.isDigit || c = '.' then some (Binary64.ofDecimal negative c e)
      else none
    | _ => none

end Conform.Number
