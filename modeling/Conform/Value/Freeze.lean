import Conform.Value.Basic

/-!
Freezing copies a value into containers that cannot change; thawing copies it back.
-/
namespace Conform.Value

mutual

def freeze : Value → Value
  | .array _ xs => .array .frozen (freezeItems xs)
  | .object _ ms => .object .frozen (freezeMembers ms)
  | v => v

def freezeItems : List Value → List Value
  | [] => []
  | x :: xs => x.freeze :: freezeItems xs

def freezeMembers : List (String × Value) → List (String × Value)
  | [] => []
  | (n, v) :: ms => (n, v.freeze) :: freezeMembers ms

end

mutual

def thaw : Value → Value
  | .array _ xs => .array .mutable (thawItems xs)
  | .object _ ms => .object .mutable (thawMembers ms)
  | v => v

def thawItems : List Value → List Value
  | [] => []
  | x :: xs => x.thaw :: thawItems xs

def thawMembers : List (String × Value) → List (String × Value)
  | [] => []
  | (n, v) :: ms => (n, v.thaw) :: thawMembers ms

end

@[simp] theorem freezeItems_eq_map (xs : List Value) : freezeItems xs = xs.map freeze := by
  induction xs with
  | nil => rfl
  | cons x xs ih => simp [freezeItems, ih]

@[simp] theorem freezeMembers_eq_map (ms : List (String × Value)) :
    freezeMembers ms = ms.map fun m => (m.1, m.2.freeze) := by
  induction ms with
  | nil => rfl
  | cons m ms ih => simp [freezeMembers, ih]

@[simp] theorem thawItems_eq_map (xs : List Value) : thawItems xs = xs.map thaw := by
  induction xs with
  | nil => rfl
  | cons x xs ih => simp [thawItems, ih]

@[simp] theorem thawMembers_eq_map (ms : List (String × Value)) :
    thawMembers ms = ms.map fun m => (m.1, m.2.thaw) := by
  induction ms with
  | nil => rfl
  | cons m ms ih => simp [thawMembers, ih]

mutual

/-- Whether a value is frozen makes no difference to what it thaws to. -/
theorem thaw_freeze (v : Value) : v.freeze.thaw = v.thaw := by
  match v with
  | .array _ xs => rw [freeze, thaw, thaw, thawItems_freezeItems xs]
  | .object _ ms => rw [freeze, thaw, thaw, thawMembers_freezeMembers ms]
  | .null | .bool _ | .number _ | .string _ | .bytes .. | .set _ | .foreign .. | .record .. => rfl

theorem thawItems_freezeItems (xs : List Value) : thawItems (freezeItems xs) = thawItems xs := by
  match xs with
  | [] => rfl
  | x :: xs => rw [freezeItems, thawItems, thawItems, thaw_freeze x, thawItems_freezeItems xs]

theorem thawMembers_freezeMembers (ms : List (String × Value)) :
    thawMembers (freezeMembers ms) = thawMembers ms := by
  match ms with
  | [] => rfl
  | (n, v) :: ms =>
    rw [freezeMembers, thawMembers, thawMembers, thaw_freeze v, thawMembers_freezeMembers ms]

end

end Conform.Value
