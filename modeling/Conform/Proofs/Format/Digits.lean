import Mathlib.Data.List.Basic
import Mathlib.Data.Nat.Digits.Defs
import Mathlib.Tactic.Ring
import Mathlib.Tactic.SplitIfs
import Conform.Format.Calendar

/-! Numbers in digits. A number is read digit by digit, under some reading of digits. Most fields of
a date and a time have two, and a digit has to be an ASCII digit where its value decides what may
stand. -/
namespace Conform

namespace Text

theorem digitValue?_of_ascii {c : Char} (ascii : c.isDigit = true) :
    digitValue? c = some (c.toNat - 48) := by
  rw [digitValue?, if_pos ascii]

theorem isDigit_iff_toNat {c : Char} : c.isDigit = true ↔ 48 ≤ c.toNat ∧ c.toNat ≤ 57 := by
  simp [Char.isDigit, UInt32.le_iff_toNat_le]

theorem digitValue?_lt {c : Char} {n : Nat} (h : digitValue? c = some n) : n < 10 := by
  rw [digitValue?] at h
  split at h
  · next ascii =>
    have range := isDigit_iff_toNat.mp ascii
    cases h
    omega
  · split at h
    · cases h
    · obtain ⟨base, found, rfl⟩ := Option.map_eq_some_iff.mp h
      have within := Array.find?_some found
      simp only [Bool.and_eq_true, decide_eq_true_eq] at within
      omega

end Text

namespace Format

/-- The value of a digit from `0` to `9`. -/
def asciiDigit? (c : Char) : Option Nat := if c.isDigit then some (c.toNat - 48) else none

/-- A number written in so many digits, under some reading of digits. -/
structure Writes (digit : Char → Option Nat) (width n : Nat) (cs : List Char) : Prop where
  width : cs.length = width
  value : ∃ ds : List Nat, cs.map digit = ds.map some ∧ Nat.ofDigits 10 ds.reverse = n

theorem writes_pair {digit : Char → Option Nat} {n : Nat} {cs : List Char} :
    Writes digit 2 n cs ↔ ∃ a b x z, cs = [a, b] ∧ digit a = some x ∧ digit b = some z ∧
      n = 10 * x + z := by
  have value (x z : Nat) : Nat.ofDigits 10 [x, z].reverse = 10 * x + z := by
    simp [Nat.ofDigits_cons, Nat.add_comm]
  constructor
  · rintro ⟨width, ds, same, rfl⟩
    obtain ⟨a, b, rfl⟩ := List.length_eq_two.mp width
    have len : ds.length = 2 := by simpa using (congrArg List.length same).symm
    obtain ⟨x, z, rfl⟩ := List.length_eq_two.mp len
    simp only [List.map_cons, List.map_nil, List.cons.injEq, and_true] at same
    exact ⟨a, b, x, z, rfl, same.1, same.2, value x z⟩
  · rintro ⟨a, b, x, z, rfl, ha, hb, rfl⟩
    exact ⟨rfl, [x, z], by simp [ha, hb], value x z⟩

theorem Writes.exists_digit {digit : Char → Option Nat} {width n : Nat} {cs : List Char}
    (h : Writes digit width n cs) {c : Char} (mem : c ∈ cs) : ∃ d, digit c = some d := by
  obtain ⟨-, ds, same, -⟩ := h
  have read : digit c ∈ ds.map some := same ▸ List.mem_map_of_mem mem
  obtain ⟨d, -, value⟩ := List.mem_map.mp read
  exact ⟨d, value.symm⟩

/-- The reading of a number, as a number that is written. -/
theorem foldlM_digit_iff {cs : List Char} {k n : Nat} :
    cs.foldlM (fun n c => (Text.digitValue? c).map (10 * n + ·)) k = some n ↔
      ∃ ds : List Nat, cs.map Text.digitValue? = ds.map some ∧
        10 ^ ds.length * k + Nat.ofDigits 10 ds.reverse = n := by
  induction cs generalizing k with
  | nil => simp
  | cons c cs ih =>
    rw [List.foldlM_cons]
    cases digit : Text.digitValue? c with
    | none =>
      refine iff_of_false nofun ?_
      rintro ⟨_ | ⟨d, ds⟩, same, -⟩
      · cases same
      · simp [digit] at same
    | some d =>
      have value (ds : List Nat) : 10 ^ (d :: ds).length * k + Nat.ofDigits 10 (d :: ds).reverse =
          10 ^ ds.length * (10 * k + d) + Nat.ofDigits 10 ds.reverse := by
        rw [List.reverse_cons, Nat.ofDigits_append, Nat.ofDigits_singleton, List.length_reverse,
          List.length_cons, pow_succ]
        ring
      simp only [Option.map_some, Option.bind_eq_bind, Option.bind_some, ih]
      constructor
      · rintro ⟨ds, same, rfl⟩
        exact ⟨d :: ds, by rw [List.map_cons, List.map_cons, digit, same], value ds⟩
      · rintro ⟨_ | ⟨d', ds⟩, same, rfl⟩
        · cases same
        · simp only [List.map_cons, List.cons.injEq, digit, Option.some.injEq] at same
          obtain ⟨rfl, same⟩ := same
          exact ⟨ds, same, (value ds).symm⟩

theorem number?_eq_some_iff {cs : List Char} {n : Nat} :
    number? cs = some n ↔ Writes Text.digitValue? cs.length n cs := by
  rw [number?, foldlM_digit_iff]
  simp only [Nat.mul_zero, Nat.zero_add]
  exact ⟨fun h => ⟨rfl, h⟩, fun h => h.value⟩

section

variable {a b : Char} {x z n : Nat} (first : Text.digitValue? a = some x)
  (second : Text.digitValue? b = some z)

include second in
theorem digitIn?_eq_some_iff {low high : Char} (low_digit : low.isDigit = true)
    (high_digit : high.isDigit = true) : digitIn? low high b = some n ↔
      b.isDigit = true ∧ n = z ∧ low.toNat ≤ z + 48 ∧ z + 48 ≤ high.toNat := by
  rw [Text.isDigit_iff_toNat] at low_digit high_digit
  have le (c d : Char) : c ≤ d ↔ c.toNat ≤ d.toNat := by
    rw [Char.le_def, UInt32.le_iff_toNat_le]
    rfl
  rw [digitIn?]
  constructor
  · intro h
    split at h
    · next within =>
      simp only [Bool.and_eq_true, decide_eq_true_eq, le] at within
      have ascii : b.isDigit = true := Text.isDigit_iff_toNat.mpr (by omega)
      rw [Text.digitValue?_of_ascii ascii] at second
      cases h
      cases second
      exact ⟨ascii, rfl, by omega, by omega⟩
    · cases h
  · rintro ⟨ascii, rfl, above, below⟩
    rw [Text.digitValue?_of_ascii ascii] at second
    cases second
    have range := Text.isDigit_iff_toNat.mp ascii
    rw [if_pos]
    simp only [Bool.and_eq_true, decide_eq_true_eq, le]
    omega

include first in
theorem eq_digit_iff {c : Char} (ascii : a.isDigit = true) (digit : c.isDigit = true) :
    a = c ↔ x + 48 = c.toNat := by
  rw [Text.isDigit_iff_toNat] at digit
  rw [Text.digitValue?_of_ascii ascii] at first
  cases first
  have range := Text.isDigit_iff_toNat.mp ascii
  rw [← Char.toNat_inj]
  omega

include first second

theorem month?_eq_some_iff : month? [a, b] = some n ↔
    (n = 10 * x + z ∧ 1 ≤ n ∧ n ≤ 12) ∧ a.isDigit = true ∧ b.isDigit = true := by
  have small := Text.digitValue?_lt second
  rw [month?]
  split_ifs with one zero
  · subst one
    cases first
    simp (disch := decide) only [Option.map_eq_some_iff, digitIn?_eq_some_iff second,
      Char.reduceToNat]
    grind
  · subst zero
    cases first
    simp (disch := decide) only [digitIn?_eq_some_iff second, Char.reduceToNat]
    grind
  · refine iff_of_false nofun ?_
    rintro ⟨⟨rfl, -, most⟩, ascii, -⟩
    simp (disch := first | assumption | decide) only [eq_digit_iff first, Char.reduceToNat]
      at one zero
    omega

theorem day?_eq_some_iff : day? [a, b] = some n ↔
    (n = 10 * x + z ∧ 1 ≤ n ∧ n ≤ 31) ∧ a.isDigit = true ∧
      (a = '0' ∨ a = '3' → b.isDigit = true) := by
  have small := Text.digitValue?_lt second
  rw [day?]
  split_ifs with three two one zero
  · subst three
    cases first
    simp (disch := decide) only [Option.map_eq_some_iff, digitIn?_eq_some_iff second,
      Char.reduceToNat]
    grind
  · subst two
    cases first
    simp only [second, Option.map_some, Option.some.injEq]
    grind
  · subst one
    cases first
    simp only [second, Option.map_some, Option.some.injEq]
    grind
  · rcases zero with rfl | rfl
    · cases first
      simp (disch := decide) only [digitIn?_eq_some_iff second, Char.reduceToNat]
      grind
    · cases first
  · refine iff_of_false nofun ?_
    rintro ⟨⟨rfl, -, most⟩, ascii, -⟩
    rw [not_or] at zero
    simp (disch := first | assumption | decide) only [eq_digit_iff first, Char.reduceToNat]
      at zero one two three
    omega

theorem hour?_eq_some_iff : hour? [a, b] = some n ↔
    (n = 10 * x + z ∧ n < 24) ∧ a.isDigit = true ∧ (a = '2' → b.isDigit = true) := by
  have small := Text.digitValue?_lt second
  rw [hour?]
  split_ifs with two one zero
  · subst two
    cases first
    simp (disch := decide) only [Option.map_eq_some_iff, digitIn?_eq_some_iff second,
      Char.reduceToNat]
    grind
  · subst one
    cases first
    simp only [second, Option.map_some, Option.some.injEq]
    grind
  · subst zero
    cases first
    simp only [second, Option.some.injEq]
    grind
  · refine iff_of_false nofun ?_
    rintro ⟨⟨rfl, most⟩, ascii, -⟩
    simp (disch := first | assumption | decide) only [eq_digit_iff first, Char.reduceToNat]
      at one zero two
    omega

theorem minute?_eq_some_iff : minute? [a, b] = some n ↔
    (n = 10 * x + z ∧ n < 60) ∧ a.isDigit = true := by
  have small := Text.digitValue?_lt second
  have split : minute? [a, b] = (digitIn? '0' '5' a).map fun d => d * 10 + z := by
    simp only [minute?, second, Option.bind_eq_bind, Option.bind_some]
    exact Option.map_eq_bind.symm
  simp (disch := decide) only [split, Option.map_eq_some_iff, digitIn?_eq_some_iff first,
    Char.reduceToNat]
  grind

theorem second?_below_iff : (second? [a, b]).any (· < 60) = true ↔
    10 * x + z < 60 ∧ a.isDigit = true := by
  rw [second?]
  split_ifs with six
  · subst six
    cases first
    simp (disch := decide) only [Option.any_map, Option.any_eq_true, digitIn?_eq_some_iff second]
    grind
  · simp only [Option.any_eq_true, minute?_eq_some_iff first second, decide_eq_true_eq]
    grind

end

theorem length_le_of_day? {cs : List Char} {n : Nat} (h : day? cs = some n) : cs.length ≤ 2 := by
  revert h
  rw [day?.eq_def]
  split <;> simp

theorem length_le_of_minute? {cs : List Char} {n : Nat} (h : minute? cs = some n) :
    cs.length ≤ 2 := by
  revert h
  rw [minute?.eq_def]
  split <;> simp

theorem length_le_of_second? {cs : List Char} {n : Nat} (h : second? cs = some n) :
    cs.length ≤ 2 := by
  revert h
  rw [second?.eq_def]
  split
  · simp
  · exact length_le_of_minute?

end Format

end Conform
