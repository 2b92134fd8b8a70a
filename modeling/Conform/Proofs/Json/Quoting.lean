import Conform.Json.Reader
import Conform.Proofs.Json.Characters

/-! Strings in JSON text: what is written between quotes is read back, character by character. -/
namespace Conform.Json

theorem hexValue?_hexDigit (n : Nat) : hexValue? (Text.hexDigit n) = some (n % 16) := by
  have digits : ∀ i < 16, hexValue? (Nat.digitChar i) = some i := by decide
  exact digits _ (Nat.mod_lt n (by decide))

/-- Four hexadecimal digits say the number that they were written for. -/
theorem hexQuad?_hexDigit {n : Nat} (h : n < 0x10000) :
    hexQuad? (Text.hexDigit (n / 16 / 16 / 16)) (Text.hexDigit (n / 16 / 16))
      (Text.hexDigit (n / 16)) (Text.hexDigit n) = some n := by
  simp only [hexQuad?, hexValue?_hexDigit, Option.bind_eq_bind, Option.bind_some, Option.pure_def,
    Option.some.injEq]
  omega

section

variable {start p n m : Nat} {acc cs : List Char} {a b c d e f g h x : Char}

theorem readString_escape (quad : hexQuad? a b c d = some n)
    (whole : (0xd800 ≤ n && n < 0xdc00) = false) :
    readString start ('\\' :: 'u' :: a :: b :: c :: d :: x :: cs) p acc =
      readString start (x :: cs) (p + 6) (Text.charOf n :: acc) := by
  rw [readString.eq_def]
  split
  case h_3 heq | h_4 heq =>
    cases heq
    simp [quad, whole]
  case h_5 short heq =>
    cases heq
    exact (short _ _ _ _ _ _ rfl).elim
  case h_7 other heq =>
    cases heq
    exact (other rfl).elim
  case h_8 other heq =>
    cases heq
    exact (other _ _ rfl rfl).elim
  all_goals next heq => cases heq

/-- A pair of escapes for one character above the basic plane. -/
theorem readString_pair (high : hexQuad? a b c d = some n) (low : hexQuad? e f g h = some m)
    (first : (0xd800 ≤ n && n < 0xdc00) = true) (second : (0xdc00 ≤ m && m < 0xe000) = true) :
    readString start
        ('\\' :: 'u' :: a :: b :: c :: d :: '\\' :: 'u' :: e :: f :: g :: h :: x :: cs) p acc =
      readString start (x :: cs) (p + 12)
        (Char.ofNat (0x10000 + (n - 0xd800) * 0x400 + (m - 0xdc00)) :: acc) := by
  rw [readString.eq_def]
  split
  case h_3 heq =>
    cases heq
    simp [high, low, first, second]
  case h_4 single heq =>
    cases heq
    exact (single _ _ _ _ _ _ rfl rfl).elim
  case h_5 short heq =>
    cases heq
    exact (short _ _ _ _ _ _ rfl).elim
  case h_7 other heq =>
    cases heq
    exact (other rfl).elim
  case h_8 other heq =>
    cases heq
    exact (other _ _ rfl rfl).elim
  all_goals next heq => cases heq

theorem readString_short (short : escapeValue? c = some d) :
    readString start ('\\' :: c :: cs) p acc = readString start cs (p + 2) (d :: acc) := by
  have other : c ≠ 'u' := by
    rintro rfl
    cases short
  rw [readString.eq_def]
  split
  case h_7 heq =>
    cases heq
    simp [short]
  case h_8 escape heq =>
    cases heq
    exact (escape _ _ rfl rfl).elim
  all_goals next heq => cases heq <;> exact (other rfl).elim

theorem readString_plain (quote : c ≠ '"') (slash : c ≠ '\\') (shown : 0x1f < c.toNat) :
    readString start (c :: cs) p acc = readString start cs (p + 1) (c :: acc) := by
  rw [readString.eq_def]
  split
  case h_8 heq =>
    cases heq
    exact if_neg (by omega)
  all_goals next heq => cases heq <;> contradiction

theorem readString_unicodeEscape (start p : Nat) (acc cs : List Char) (c x : Char) : ∃ q,
    readString start (unicodeEscape c.toNat ++ x :: cs) p acc =
      readString start (x :: cs) q (c :: acc) := by
  have valid : c.toNat < 0xd800 ∨ 0xdfff < c.toNat ∧ c.toNat < 0x110000 := c.valid
  unfold unicodeEscape
  split
  · next basic =>
    have whole : Text.charOf c.toNat = c := by
      have outside : ¬(0xd800 ≤ c.toNat && c.toNat < 0xe000) = true := by
        simp only [Bool.and_eq_true, decide_eq_true_eq]
        omega
      rw [Text.charOf, if_neg outside, Char.ofNat_toNat]
    refine ⟨p + 6, (readString_escape (hexQuad?_hexDigit basic) ?_).trans (by rw [whole])⟩
    simp only [Bool.and_eq_false_iff, decide_eq_false_iff_not]
    omega
  · next beyond =>
    dsimp only
    generalize hn : 0xd800 + (c.toNat - 0x10000) / 0x400 = n
    generalize hm : 0xdc00 + (c.toNat - 0x10000) % 0x400 = m
    have joined : Char.ofNat (0x10000 + (n - 0xd800) * 0x400 + (m - 0xdc00)) = c := by
      rw [show 0x10000 + (n - 0xd800) * 0x400 + (m - 0xdc00) = c.toNat by omega, Char.ofNat_toNat]
    refine ⟨p + 12, (readString_pair (hexQuad?_hexDigit ?_) (hexQuad?_hexDigit ?_) ?_ ?_).trans
      (by rw [joined])⟩
    · omega
    · omega
    · simp only [Bool.and_eq_true, decide_eq_true_eq]
      omega
    · simp only [Bool.and_eq_true, decide_eq_true_eq]
      omega

/-- Every character is read back from what is written for it, if anything stands after it. -/
theorem readString_escapeChar (start p : Nat) (acc cs : List Char) (c x : Char) : ∃ q,
    readString start (escapeChar c ++ x :: cs) p acc = readString start (x :: cs) q (c :: acc) := by
  unfold escapeChar
  split_ifs with quote slash line carriage tab back feed plain
  case neg =>
    exact readString_unicodeEscape start p acc cs c x
  case pos =>
    subst quote
    exact ⟨_, readString_short rfl⟩
  case pos =>
    subst slash
    exact ⟨_, readString_short rfl⟩
  case pos =>
    subst line
    exact ⟨_, readString_short rfl⟩
  case pos =>
    subst carriage
    exact ⟨_, readString_short rfl⟩
  case pos =>
    subst tab
    exact ⟨_, readString_short rfl⟩
  case pos =>
    subst back
    exact ⟨_, readString_short rfl⟩
  case pos =>
    subst feed
    exact ⟨_, readString_short rfl⟩
  case pos =>
    simp only [Bool.and_eq_true, decide_eq_true_eq] at plain
    exact ⟨_, readString_plain quote slash (by omega)⟩

/-- Every string is read back from what is written for it. -/
theorem readString_quote (start p : Nat) (acc cs rest : List Char) : ∃ q,
    readString start (cs.flatMap escapeChar ++ '"' :: rest) p acc =
      .ok ⟨String.ofList (acc.reverse ++ cs), rest, q⟩ := by
  induction cs generalizing p acc with
  | nil => exact ⟨p + 1, by simp [readString]⟩
  | cons c cs ih =>
    -- an escape is only read with a character after it
    obtain ⟨x, tail, more⟩ : ∃ x tail, cs.flatMap escapeChar ++ '"' :: rest = x :: tail :=
      List.exists_cons_of_ne_nil (by simp)
    obtain ⟨q, step⟩ := readString_escapeChar start p acc tail c x
    rw [List.flatMap_cons, List.append_assoc, more, step, ← more]
    obtain ⟨q', later⟩ := ih q (c :: acc)
    exact ⟨q', by simpa using later⟩

end

end Conform.Json
