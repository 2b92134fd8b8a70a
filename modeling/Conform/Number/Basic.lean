import Conform.Number.Decimal

/-!
Numbers of the four kinds a value can hold. Order, equality and divisibility look only at the
extended rational that a number stands for, so they are exact across kinds.
-/
namespace Conform

inductive Number
  | integer (n : Int)
  | double (x : Binary64)
  | decimal (d : Decimal)
  | fraction (r : Rat)
  deriving DecidableEq

/-- A rational, an infinity, or no number at all. -/
inductive Extended
  | finite (r : Rat)
  | infinite (negative : Bool)
  | nan
  deriving DecidableEq

namespace Extended

def equal : Extended → Extended → Bool
  | .finite a, .finite b => a == b
  | .infinite a, .infinite b => a == b
  | _, _ => false

def less : Extended → Extended → Bool
  | .finite a, .finite b => a < b
  | .finite _, .infinite negative => !negative
  | .infinite negative, .finite _ => negative
  | .infinite a, .infinite b => a && !b
  | _, _ => false

def lessOrEqual (a b : Extended) : Bool := a.less b || a.equal b

end Extended

namespace Number

def ofInt (n : Int) : Number := .integer n

/-- What the number stands for. -/
def value : Number → Extended
  | .integer n => .finite (n : Rat)
  | .double x =>
    if x.isNaN then .nan else if x.isInfinite then .infinite x.negative else .finite x.toRat
  | .decimal (.finite negative c e) => .finite (Decimal.valueOf negative c e)
  | .decimal (.infinite negative) => .infinite negative
  | .decimal (.nan ..) => .nan
  | .fraction r => .finite r

def equal (a b : Number) : Bool := a.value.equal b.value
def less (a b : Number) : Bool := a.value.less b.value
def lessOrEqual (a b : Number) : Bool := a.value.lessOrEqual b.value

def isDouble : Number → Bool
  | .double _ => true
  | _ => false

/-- The exact whole number that `n` equals, if there is one. -/
def toInt? (n : Number) : Option Int :=
  match n.value with
  | .finite r => if r.den == 1 then some r.num else none
  | _ => none

def isWhole (n : Number) : Bool := n.toInt?.isSome

def fractionText (r : Rat) : String :=
  if r.den == 1 then toString r.num else toString r.num ++ "/" ++ toString r.den

/-- The text of a number in its own kind. -/
def text : Number → String
  | .integer n => toString n
  | .double x => x.text
  | .decimal d => d.text
  | .fraction r => fractionText r

/-- The text shown in messages: a whole double prints as the integer it equals. -/
def display : Number → String
  | .double x => if x.isWhole then toString x.toRat.num else x.text
  | n => n.text

/-- How far a quotient may lie from a whole number once a double takes part: the double
nearest to `1e-10`. -/
def tolerance : Rat := (Binary64.ofDecimal false 1 (-10)).toRat

/-- The whole number nearest to `r`; of two equally near the even one. -/
def nearest (r : Rat) : Int :=
  let below := r.floor
  let part := r - (below : Rat)
  if 2 * part < 1 then below
  else if 1 < 2 * part then below + 1
  else if below % 2 = 0 then below
  else below + 1

/-- The distance of `r` to the nearest whole number. -/
def offWhole (r : Rat) : Rat := (r - (nearest r : Rat)).abs

/-- What is left of `a` once whole multiples of `b` are taken away. -/
def remainder (a b : Rat) : Rat := a - b * ((a / b).floor : Rat)

inductive DivisionByZero
  | remainder
  | quotient (sign : Int)

def DivisionByZero.message : DivisionByZero → String
  | .remainder => "integer modulo by zero"
  | .quotient sign => s!"Fraction({sign}, 0)"

/-- Whether `n` is a multiple of `d`: exactly when both are exact, within `tolerance` of a whole
quotient when one is a double, and never when one is not finite. -/
def isMultipleOf (n d : Number) : Except DivisionByZero Bool :=
  match n.value, d.value with
  | .finite a, .finite b =>
    if n.isDouble || d.isDouble then
      if b == 0 then .error (.quotient a.num.sign) else .ok (offWhole (a / b) ≤ tolerance)
    else if b == 0 then .error .remainder else .ok (remainder a b == 0)
  | _, _ => .ok false

end Number

end Conform
