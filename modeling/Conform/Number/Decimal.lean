import Conform.Number.Shortest

/-!
Decimal numbers of any length: a coefficient and a power of ten, or one of the special values.
The text keeps the written precision, so `1.50` and `1.5` are equal but print apart.
-/
namespace Conform

inductive Decimal
  | finite (negative : Bool) (coefficient : Nat) (exponent : Int)
  | infinite (negative : Bool)
  | nan (negative signaling : Bool) (payload : List Char)
  deriving DecidableEq

namespace Decimal

def isFinite : Decimal → Bool
  | .finite .. => true
  | _ => false

/-- The exact value of a coefficient and a power of ten. -/
def valueOf (negative : Bool) (coefficient : Nat) (exponent : Int) : Rat :=
  let magnitude := (coefficient : Rat) * Binary64.tenPow exponent
  if negative then -magnitude else magnitude

/-- The text of a finite decimal: positional while the point stays within six places of the
leading digit and no zeros are made up at the end, otherwise scientific. -/
def finiteText (coefficient : Nat) (exponent : Int) : List Char :=
  let digits := Nat.toDigits 10 coefficient
  let count : Int := digits.length
  let left := exponent + count
  let point := if exponent ≤ 0 && -6 < left then left else 1
  let body :=
    if point ≤ 0 then ['0', '.'] ++ List.replicate (-point).toNat '0' ++ digits
    else if count ≤ point then digits ++ List.replicate (point - count).toNat '0'
    else digits.take point.toNat ++ ['.'] ++ digits.drop point.toNat
  let power := left - point
  if power = 0 then body
  else body ++ ['E', if power < 0 then '-' else '+'] ++ Nat.toDigits 10 power.natAbs

def text (d : Decimal) : String :=
  let signed (negative : Bool) (body : List Char) :=
    String.ofList (if negative then '-' :: body else body)
  match d with
  | .finite negative c e => signed negative (finiteText c e)
  | .infinite negative => signed negative "Infinity".toList
  | .nan negative signaling payload =>
    signed negative ((if signaling then "sNaN".toList else "NaN".toList) ++ payload)

/-- Reads a run of digits, with the value so far. -/
def takeDigits : Nat → List Char → Nat × Nat × List Char
  | acc, c :: rest =>
    if c.isDigit then
      let (value, count, tail) := takeDigits (acc * 10 + (c.toNat - 48)) rest
      (value, count + 1, tail)
    else (acc, 0, c :: rest)
  | acc, [] => (acc, 0, [])

/-- The exponent part that may end a decimal: nothing, or `e` with a signed whole number. -/
def readExponent? : List Char → Option Int
  | [] => some 0
  | c :: rest =>
    if c = 'e' || c = 'E' then
      let (negative, rest) := match rest with
        | '-' :: r => (true, r)
        | '+' :: r => (false, r)
        | r => (false, r)
      match takeDigits 0 rest with
      | (_, 0, _) => none
      | (value, _, []) => some (if negative then -(value : Int) else value)
      | _ => none
    else none

/-- Reads a decimal literal: sign, digits with at most one point, exponent, or a special word. -/
def read? (text : String) : Option Decimal :=
  let cs := text.toList
  let (negative, cs) := match cs with
    | '-' :: r => (true, r)
    | '+' :: r => (false, r)
    | r => (false, r)
  let word := String.ofList (cs.map Char.toLower)
  if word = "inf" || word = "infinity" then some (.infinite negative)
  else if word.startsWith "nan" then
    if (cs.drop 3).all Char.isDigit then
      some (.nan negative false ((cs.drop 3).dropWhile (· == '0'))) else none
  else if word.startsWith "snan" then
    if (cs.drop 4).all Char.isDigit then
      some (.nan negative true ((cs.drop 4).dropWhile (· == '0'))) else none
  else
    let (whole, wholeCount, rest) := takeDigits 0 cs
    let (value, fractionCount, rest) := match rest with
      | '.' :: r => takeDigits whole r
      | r => (whole, 0, r)
    if wholeCount + fractionCount = 0 then none
    else (readExponent? rest).map fun e => .finite negative value (e - fractionCount)

end Decimal

end Conform
