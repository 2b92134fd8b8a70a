import Conform.Value.Basic

/-!
Two ways for a value to count as nothing: as a condition, and as a field that must be filled in.
-/
namespace Conform

/-- Whether a value counts as yes: anything but nothing, no, zero and the empty. -/
def Value.isTruthy : Value → Bool
  | .null => false
  | .bool b => b
  | .number n => !n.equal (.integer 0)
  | .string s => !s.isEmpty
  | .bytes _ data => !data.isEmpty
  | .array _ xs | .set xs => !xs.isEmpty
  | .object _ ms => !ms.isEmpty
  | .foreign .. | .record .. => true

/-- Whether a required field counts as not filled in. Of the numbers only exact integers and
doubles can be zero here. -/
def Value.isZero : Value → Bool
  | .null => true
  | .bool b => !b
  | .string s => s.isEmpty
  | .bytes .frozen data => data.isEmpty
  | .array _ xs => xs.isEmpty
  | .set xs => xs.isEmpty
  | .object .mutable ms => ms.isEmpty
  | .number (.integer n) => n == 0
  | .number (.double x) => (Number.double x).equal (.integer 0)
  | _ => false

end Conform
