/-!
Binary floating-point numbers of 64 bits, kept as their three fields. Every triple of fields is
a number, an infinity or a NaN, so the type needs no invariant; all arithmetic on them is done on
the exact rational that they stand for.
-/
namespace Conform

/-- Two to the 52nd: the hidden bit of a significand, and the number of fractions below it. -/
abbrev Binary64.hiddenBit : Nat := 4503599627370496

structure Binary64 where
  negative : Bool
  exponent : Fin 2048
  fraction : Fin Binary64.hiddenBit
  deriving DecidableEq

namespace Binary64

def zero (negative : Bool) : Binary64 := ⟨negative, 0, 0⟩

def infinity (negative : Bool) : Binary64 := ⟨negative, 2047, 0⟩

def nan : Binary64 := ⟨false, 2047, ⟨hiddenBit / 2, by decide⟩⟩

def isFinite (x : Binary64) : Bool := x.exponent.val != 2047

def isInfinite (x : Binary64) : Bool := x.exponent.val == 2047 && x.fraction.val == 0

def isNaN (x : Binary64) : Bool := x.exponent.val == 2047 && x.fraction.val != 0

/-- The whole number of units of the last place; a zero exponent field has no hidden bit. -/
def significand (x : Binary64) : Nat :=
  if x.exponent.val = 0 then x.fraction.val else hiddenBit + x.fraction.val

/-- The power of two of the last place. -/
def scale (x : Binary64) : Int :=
  if x.exponent.val = 0 then -1074 else (x.exponent.val : Int) - 1075

/-- Two to a whole power, as an exact rational. -/
def twoPow (e : Int) : Rat :=
  if 0 ≤ e then (Nat.pow 2 e.toNat : Rat) else mkRat 1 (Nat.pow 2 (-e).toNat)

/-- The exact magnitude of a finite number. -/
def magnitude (x : Binary64) : Rat := (x.significand : Rat) * twoPow x.scale

/-- The exact value of a finite number. -/
def toRat (x : Binary64) : Rat := if x.negative then -x.magnitude else x.magnitude

/-- The nearest whole number to `n / d`; a half goes to the even neighbour. -/
def roundHalfEven (n d : Nat) : Nat :=
  let q := n / d
  let r := n % d
  if 2 * r < d then q else if d < 2 * r then q + 1 else if q % 2 = 0 then q else q + 1

/-- The fields of `m` units of `2 ^ e`, for `m` at most twice the hidden bit; below the hidden bit
it has to be `e = -1074`. -/
def ofUnits (negative : Bool) (m : Nat) (e : Int) : Binary64 :=
  let (m, e) := if m = 2 * hiddenBit then (hiddenBit, e + 1) else (m, e)
  if m < hiddenBit then ⟨negative, 0, Fin.ofNat _ m⟩
  else if 972 ≤ e then infinity negative
  else ⟨negative, Fin.ofNat _ (e + 1075).toNat, Fin.ofNat _ (m - hiddenBit)⟩

/-- The number nearest to `n / d`, ties to the even significand, overflow to infinity. -/
def ofQuotient (negative : Bool) (n d : Nat) : Binary64 :=
  if n = 0 then zero negative else
  let guess : Int := (n.log2 : Int) - d.log2
  let atLeast (e : Int) : Bool :=
    if 0 ≤ e then d * Nat.pow 2 e.toNat ≤ n else d ≤ n * Nat.pow 2 (-e).toNat
  let leading := if atLeast guess then guess else guess - 1
  let unit := max (-1074) (leading - 52)
  let m := if 0 ≤ unit then roundHalfEven n (d * Nat.pow 2 unit.toNat)
    else roundHalfEven (n * Nat.pow 2 (-unit).toNat) d
  ofUnits negative m unit

/-- The number nearest to `digits * 10 ^ exponent`. Powers far outside the range are not computed:
beyond 310 places every value is infinite, below -400 every value is zero. -/
def ofDecimal (negative : Bool) (digits : Nat) (exponent : Int) : Binary64 :=
  if digits = 0 then zero negative else
  let places : Int := (Nat.toDigits 10 digits).length + exponent
  if 310 < places then infinity negative
  else if places < -400 then zero negative
  else if 0 ≤ exponent then ofQuotient negative (digits * Nat.pow 10 exponent.toNat) 1
  else ofQuotient negative digits (Nat.pow 10 (-exponent).toNat)

/-- Whether a finite number has no fractional part. -/
def isWhole (x : Binary64) : Bool := x.isFinite && x.toRat.den == 1

end Binary64

end Conform
