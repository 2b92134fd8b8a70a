/-!
Membership of a character in a sorted table of code point ranges.
-/
namespace Conform.Text

/-- Ranges of code points, both ends included. -/
abbrev Ranges := Array (Nat × Nat)

/-- Whether some range of the table holds the code point. -/
def Ranges.holds (table : Ranges) (code : Nat) : Bool :=
  table.any fun (low, high) => low ≤ code && code ≤ high

end Conform.Text
