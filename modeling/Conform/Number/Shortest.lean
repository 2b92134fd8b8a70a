import Conform.Number.Binary64

/-!
The text of a binary number: the fewest decimal digits that read back as the same number, the
nearest such digits to its exact value, and the layout of point and exponent.
-/
namespace Conform.Binary64

/-- Ten to a whole power, as an exact rational. -/
def tenPow (e : Int) : Rat :=
  if 0 ≤ e then (Nat.pow 10 e.toNat : Rat) else mkRat 1 (Nat.pow 10 (-e).toNat)

/-- Halfway to the next number up. -/
def upperEdge (x : Binary64) : Rat := ((2 * x.significand + 1 : Nat) : Rat) * twoPow (x.scale - 1)

/-- Halfway to the next number down, which is half as far below a power of two. -/
def lowerEdge (x : Binary64) : Rat :=
  if x.fraction.val = 0 && 1 < x.exponent.val then
    ((4 * x.significand - 1 : Nat) : Rat) * twoPow (x.scale - 2)
  else ((2 * x.significand - 1 : Nat) : Rat) * twoPow (x.scale - 1)

/-- Whether `r` rounds to `x`: the edges themselves do when the significand is even. -/
def rounds (x : Binary64) (r : Rat) : Bool :=
  if x.significand % 2 = 0 then x.lowerEdge ≤ r && r ≤ x.upperEdge
  else x.lowerEdge < r && r < x.upperEdge

/-- The power of ten of the leading digit of a positive rational. -/
def leadingPower (r : Rat) : Int :=
  let n := r.num.toNat
  if r.den ≤ n then ((Nat.toDigits 10 (n / r.den)).length : Int) - 1
  else
    let k := (Nat.toDigits 10 (r.den / n)).length - 1
    if r.den ≤ n * Nat.pow 10 k then -(k : Int) else -((k : Int) + 1)

/-- The better of the two neighbours of `x` among the multiples of `10 ^ e`, if one rounds to `x`:
the nearer, and of two equally near the even one. -/
def neighbour? (x : Binary64) (e : Int) : Option Nat :=
  let exact := x.magnitude / tenPow e
  let low := exact.floor.toNat
  let lowFits := x.rounds ((low : Rat) * tenPow e)
  let highFits := x.rounds (((low + 1 : Nat) : Rat) * tenPow e)
  if lowFits && highFits then
    let below := exact - (low : Rat)
    let above := ((low + 1 : Nat) : Rat) - exact
    if below < above then some low
    else if above < below then some (low + 1)
    else some (if low % 2 = 0 then low else low + 1)
  else if lowFits then some low
  else if highFits then some (low + 1)
  else none

/-- Searches finer and finer grids below `10 ^ e`; seventeen places always suffice. -/
def searchDigits (x : Binary64) (e : Int) : Nat → Nat × Int
  | 0 => ((x.magnitude / tenPow e).floor.toNat, e)
  | places + 1 =>
    match x.neighbour? e with
    | some digits => (digits, e)
    | none => x.searchDigits (e - 1) places

/-- Digits and power of ten of the shortest decimal that reads back as the finite number `x ≠ 0`. -/
def shortest (x : Binary64) : Nat × Int := x.searchDigits (leadingPower x.magnitude) 17

/-- Drops the trailing zeros of a digit string. -/
def trimZeros (cs : List Char) : List Char := (cs.reverse.dropWhile (· == '0')).reverse

/-- The digits with a point at place `point`: positional from `0.0001` up to seventeen places before
the point, otherwise with an exponent of at least two digits. -/
def layout (digits : List Char) (point : Int) : List Char :=
  if -4 < point && point ≤ 16 then
    if point ≤ 0 then ['0', '.'] ++ List.replicate (-point).toNat '0' ++ digits
    else
      let n := point.toNat
      if digits.length ≤ n then digits ++ List.replicate (n - digits.length) '0' ++ ['.', '0']
      else digits.take n ++ ['.'] ++ digits.drop n
  else
    let e := point - 1
    let sign := if e < 0 then '-' else '+'
    let places := Nat.toDigits 10 e.natAbs
    let places := if places.length < 2 then '0' :: places else places
    let fraction := digits.drop 1
    digits.take 1 ++ (if fraction.isEmpty then [] else '.' :: fraction) ++ ['e', sign] ++ places

/-- Digits of the magnitude of a finite number. -/
def magnitudeText (x : Binary64) : List Char :=
  if x.significand = 0 then ['0', '.', '0']
  else
    let (digits, e) := x.shortest
    let all := Nat.toDigits 10 digits
    layout (trimZeros all) (all.length + e)

/-- The shortest text that reads back, with `inf` and `nan` for the values without digits. -/
def text (x : Binary64) : String :=
  if x.isNaN then "nan"
  else
    let body := if x.isInfinite then ['i', 'n', 'f'] else x.magnitudeText
    String.ofList (if x.negative then '-' :: body else body)

end Conform.Binary64
