import Conform.Value.Basic

/-!
Two equalities of values. `identical` is the one containers use for their own contents, where true
equals one. `same` is equality of JSON values, where booleans equal only booleans.
-/
namespace Conform.Value

/-- A number or truth value as a number. -/
def asNumber? : Value → Option Number
  | .number n => some n
  | .bool b => some (.integer (if b then 1 else 0))
  | _ => none

/-- Numbers inside containers: a double that is no number is one and the same constant. -/
def identicalNumbers (a b : Number) : Bool :=
  a.equal b || match a, b with
    | .double x, .double y => x.isNaN && y.isNaN
    | _, _ => false

mutual

def identical : Value → Value → Bool
  | .null, .null => true
  | .string s, .string t => s == t
  | .bytes _ a, .bytes _ b => a == b
  | .array a xs, .array b ys => a == b && identicalItems xs ys
  | .set xs, .set ys => xs.length == ys.length && identicalSome xs ys
  | .object _ ms, .object _ ns => ms.length == ns.length && identicalMembers ms ns
  | v, w => match v.asNumber?, w.asNumber? with
    | some a, some b => identicalNumbers a b
    | _, _ => false

def identicalItems : List Value → List Value → Bool
  | [], [] => true
  | x :: xs, y :: ys => x.identical y && identicalItems xs ys
  | _, _ => false

/-- Whether each of the first has an equal among the second. -/
def identicalSome : List Value → List Value → Bool
  | [], _ => true
  | x :: xs, ys => ys.any (fun y => x.identical y) && identicalSome xs ys

def identicalMembers : List (String × Value) → List (String × Value) → Bool
  | [], _ => true
  | (n, v) :: ms, ns =>
    (match Listing.get? n ns with
      | some w => v.identical w
      | none => false) && identicalMembers ms ns

end

mutual

def same : Value → Value → Bool
  | .null, .null => true
  | .bool a, .bool b => a == b
  | .number a, .number b => a.equal b
  | .string s, .string t => s == t
  | .bytes _ a, .bytes _ b => a == b
  | .array _ xs, .array _ ys => sameItems xs ys
  | .object _ ms, .object _ ns => ms.length == ns.length && sameMembers ms ns
  | .set xs, .set ys => identical (.set xs) (.set ys)
  | _, _ => false

def sameItems : List Value → List Value → Bool
  | [], [] => true
  | x :: xs, y :: ys => x.same y && sameItems xs ys
  | _, _ => false

/-- Whether each member of the first is found, by name and equal, in the second. -/
def sameMembers : List (String × Value) → List (String × Value) → Bool
  | [], _ => true
  | (n, v) :: ms, ns =>
    (match Listing.get? n ns with
      | some w => v.same w
      | none => false) && sameMembers ms ns

end

/-- A set from a list: of equal elements the first stays. -/
def setOf (items : List Value) : Value :=
  .set (items.foldl (fun seen x => if seen.any (fun y => y.identical x) then seen else seen ++ [x])
    [])

end Conform.Value
