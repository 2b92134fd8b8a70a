import Conform.Proofs.Tag

/-! Writing directives down. What a tag can say of a key is spelled behind the key, directives stand
between commas with blanks around them, and whoever reads the tag finds them again: the same keys in
the same order, with the same values. -/
namespace Conform

namespace Number

open Text

theorem plainDigits_minus {cs : List Char} (digits : ∀ c ∈ cs, c.isDigit = true) :
    plainDigits ('-' :: cs) = '-' :: cs := by
  have solid : ∀ c ∈ cs, isBlank c = false := fun c hc => isBlank_of_isDigit (digits c hc)
  have solid' : ∀ c ∈ '-' :: cs, isBlank c = false :=
    List.forall_mem_cons.mpr ⟨by decide, solid⟩
  have tail := plainDigits_of_digits digits
  rw [plainDigits, strip_of_trimmed (.of_solid solid)] at tail
  rw [plainDigits, strip_of_trimmed (.of_solid solid'), List.map_cons, tail]
  rfl

/-- A whole number that is written out is read as itself, with a minus sign too. -/
theorem readInteger?_toString_int (n : Int) : readInteger? (toString n) = some n := by
  cases n with
  | ofNat n => exact readInteger?_toString n
  | negSucc n =>
    have written : (toString (Int.negSucc n)).toList = '-' :: Nat.toDigits 10 (n + 1) := by
      change ("-" ++ toString (n + 1)).toList = _
      rw [String.toList_append, Nat.toString_eq_repr, Nat.toList_repr]
      rfl
    have digits : ∀ c ∈ Nat.toDigits 10 (n + 1), c.isDigit = true := fun c hc =>
      Nat.isDigit_of_mem_toDigits (by decide) (by decide) hc
    have joined : dropUnderscores? none ('-' :: Nat.toDigits 10 (n + 1)) =
        some ('-' :: Nat.toDigits 10 (n + 1)) := by
      rw [dropUnderscores?.eq_3 _ _ _ (by decide), dropUnderscores?_of_digits digits]
      rfl
    rw [readInteger?, written, plainDigits_minus digits, joined]
    simp only [Option.bind_eq_bind, Option.bind_some, splitSign,
      digitsOnly?_of_digits digits Nat.toDigits_ne_nil,
      Nat.ofDigitChars_toDigits (b := 10) (by decide) (by decide)]
    rfl

theorem minus_or_isDigit_of_mem_toString (n : Int) :
    ∀ c ∈ (toString n).toList, c = '-' ∨ c.isDigit = true := by
  intro c hc
  cases n with
  | ofNat n => exact .inr (isDigit_of_mem_toString n c hc)
  | negSucc n =>
    change c ∈ ("-" ++ toString (n + 1)).toList at hc
    rw [String.toList_append, List.mem_append] at hc
    rcases hc with sign | digit
    · exact .inl (List.mem_singleton.mp sign)
    · exact .inr (isDigit_of_mem_toString (n + 1) c digit)

end Number

namespace Tag

open Text

/-- What a directive says of its key: nothing more, a whole number, alternatives, or a text. -/
inductive Setting
  | flag
  | whole (n : Int)
  | choice (items : List String)
  | text (s : String)

namespace Setting

def value : Setting → Value
  | flag => .bool true
  | whole n => .ofInt n
  | choice items => .list (items.map .string)
  | text s => .string s

/-- What stands behind the equals sign, if there is one. -/
def written? : Setting → Option (List Char)
  | flag => none
  | whole n => some (toString n).toList
  | choice items => some (['|'].intercalate (items.map String.toList))
  | text s => some s.toList

/-- A key can be given what is read back under it. -/
inductive Suits (key : String) : Setting → Prop
  | flag : Suits key flag
  | whole (numeric : key ∈ numericKeys) (n : Int) : Suits key (whole n)
  | choice {items : List String} (named : key = "enum") (filled : items ≠ [])
    (free : ∀ item ∈ items, ',' ∉ item.toList ∧ '|' ∉ item.toList)
    (trimmed : Trimmed (['|'].intercalate (items.map String.toList))) : Suits key (choice items)
  | text {s : String} (plain : key ∉ numericKeys) (unlisted : key ≠ "enum")
    (free : ',' ∉ s.toList) (trimmed : Trimmed s.toList) : Suits key (text s)

end Setting

variable {key : String} {setting : Setting}

theorem not_mem_intercalate {c d : Char} (other : c ≠ d) {parts : List (List Char)}
    (free : ∀ part ∈ parts, c ∉ part) : c ∉ [d].intercalate parts := by
  induction parts with
  | nil => simp
  | cons part parts ih =>
    rw [List.forall_mem_cons] at free
    cases parts with
    | nil => simpa using free.1
    | cons next parts =>
      rw [List.intercalate_cons_cons]
      simp only [List.mem_append, List.mem_singleton, not_or]
      exact ⟨⟨free.1, other⟩, ih free.2⟩

/-- What is written behind an equals sign ends where the directive ends, and means the value. -/
theorem Setting.Suits.written (suits : setting.Suits key) {raw : List Char}
    (written : setting.written? = some raw) :
    ',' ∉ raw ∧ Trimmed raw ∧ directiveValue key raw = setting.value := by
  cases suits with
  | flag => cases written
  | whole numeric n =>
    cases written
    have letters := Number.minus_or_isDigit_of_mem_toString n
    refine ⟨fun mem => ?_, .of_solid fun c hc => ?_, ?_⟩
    · have letter := letters _ mem
      revert letter
      decide
    · rcases letters c hc with rfl | digit
      · decide
      · exact Number.isBlank_of_isDigit digit
    · rw [directiveValue, if_pos numeric, String.ofList_toList, numberOrText,
        Number.readInteger?_toString_int]
      rfl
  | @choice items named filled free trimmed =>
    cases written
    have apart : ∀ part ∈ items.map String.toList, '|' ∉ part :=
      List.forall_mem_map.mpr fun item hi => (free item hi).2
    refine ⟨?_, trimmed, ?_⟩
    · exact not_mem_intercalate (by decide)
        (List.forall_mem_map.mpr fun item hi => (free item hi).1)
    · rw [directiveValue, if_neg (by rw [named]; decide), if_pos named,
        splitAt_intercalate (by simpa using filled) apart, List.map_map]
      simp [Setting.value, Function.comp_def]
  | text plain unlisted free trimmed =>
    cases written
    refine ⟨free, trimmed, ?_⟩
    rw [directiveValue, if_neg plain, if_neg unlisted, String.ofList_toList]
    rfl

section

variable {ds : List (String × Setting)} {parts : List (List Char)}

end

end Tag

end Conform
