import Conform.Value.Equal
import Conform.Listing

/-!
Named comparisons of two values, for use by custom rules.
-/
namespace Conform

structure Comparator where
  label : String
  holds : Value → Value → Bool

namespace Comparator

/-- A comparison of numbers, which holds of nothing else. -/
def numeric (compare : Number → Number → Bool) (a b : Value) : Bool :=
  match a, b with
  | .number x, .number y => compare x y
  | _, _ => false

def builtins : Listing Comparator :=
  [("eq", ⟨"builtin", Value.same⟩), ("ne", ⟨"builtin", fun a b => !a.same b⟩),
    ("gt", ⟨"builtin", numeric fun x y => y.less x⟩),
    ("ge", ⟨"builtin", numeric fun x y => y.lessOrEqual x⟩),
    ("lt", ⟨"builtin", numeric Number.less⟩),
    ("le", ⟨"builtin", numeric Number.lessOrEqual⟩)]

end Comparator

end Conform
