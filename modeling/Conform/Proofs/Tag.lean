import Mathlib.Data.List.TakeWhile
import Conform.Tag

/-! Reading tags. A tag that is written as parts between commas is read part by part, blanks around a
part are not seen, and a number that is written out is read as itself. -/
namespace Conform

namespace Text

theorem solid_of_all {core : List Char} (h : (core.all fun c => !isBlank c) = true) :
    ∀ c ∈ core, isBlank c = false := by
  simpa using h

/-- Without blanks at either end. -/
structure Trimmed (cs : List Char) : Prop where
  first : ∀ c ∈ cs.head?, isBlank c = false
  last : ∀ c ∈ cs.getLast?, isBlank c = false

theorem trimmed_iff {cs : List Char} : Trimmed cs ↔
    (cs.head?.all fun c => !isBlank c) = true ∧ (cs.getLast?.all fun c => !isBlank c) = true := by
  simp only [Option.all_eq_true, Bool.not_eq_true']
  exact ⟨fun h => ⟨h.first, h.last⟩, fun h => ⟨h.1, h.2⟩⟩

instance (cs : List Char) : Decidable (Trimmed cs) := decidable_of_iff _ trimmed_iff.symm

theorem Trimmed.of_solid {core : List Char} (solid : ∀ c ∈ core, isBlank c = false) :
    Trimmed core where
  first c hc := solid c (List.mem_of_head? hc)
  last c hc := solid c (List.mem_of_getLast? hc)

theorem dropWhile_of_head {core : List Char} (first : ∀ c ∈ core.head?, isBlank c = false) :
    core.dropWhile isBlank = core := by
  cases core with
  | nil => rfl
  | cons c core => exact List.dropWhile_cons_of_neg (by simp [first c rfl])

/-- Blanks around a text are not seen. -/
theorem strip_between {before core after : List Char} (blank : ∀ c ∈ before, isBlank c = true)
    (blank' : ∀ c ∈ after, isBlank c = true) (trimmed : Trimmed core) :
    strip (before ++ core ++ after) = core := by
  have reversed : ∀ c ∈ after.reverse, isBlank c = true := fun c hc =>
    blank' c (List.mem_reverse.mp hc)
  rw [strip, List.append_assoc, List.dropWhile_append_of_pos blank]
  cases core with
  | nil =>
    rw [List.nil_append, List.dropWhile_eq_nil_iff.mpr blank']
    rfl
  | cons c core =>
    have last : ∀ d ∈ (c :: core).reverse.head?, isBlank d = false := by
      rw [List.head?_reverse]
      exact trimmed.last
    rw [List.cons_append, List.dropWhile_cons_of_neg (by simp [trimmed.first c rfl]),
      ← List.cons_append, List.reverse_append, List.dropWhile_append_of_pos reversed,
      dropWhile_of_head last, List.reverse_reverse]

theorem strip_of_trimmed {core : List Char} (trimmed : Trimmed core) : strip core = core := by
  have around : strip ([] ++ core ++ []) = core := strip_between nofun nofun trimmed
  simpa using around

end Text

namespace Number

open Text

/-- Digits are read to the end, one after the other. -/
theorem takeDigits_of_digits {cs : List Char} (digits : ∀ c ∈ cs, c.isDigit = true) (acc : Nat) :
    Decimal.takeDigits acc cs = (Nat.ofDigitChars 10 cs acc, cs.length, []) := by
  induction cs generalizing acc with
  | nil => rfl
  | cons c cs ih =>
    rw [List.forall_mem_cons] at digits
    rw [Decimal.takeDigits, if_pos digits.1, ih digits.2, Nat.ofDigitChars_cons, Nat.mul_comm]
    rfl

theorem toNat_bounds_of_isDigit {c : Char} (h : c.isDigit = true) :
    48 ≤ c.toNat ∧ c.toNat ≤ 57 := by
  simp only [Char.isDigit, Bool.and_eq_true, decide_eq_true_eq, UInt32.le_iff_toNat_le,
    ge_iff_le] at h
  exact h

theorem isBlank_of_isDigit {c : Char} (h : c.isDigit = true) : isBlank c = false := by
  have bounds := toNat_bounds_of_isDigit h
  simp only [isBlank, Bool.or_eq_false_iff, Bool.and_eq_false_iff, decide_eq_false_iff_not,
    beq_eq_false_iff_ne]
  omega

section

variable {cs : List Char} (digits : ∀ c ∈ cs, c.isDigit = true)
include digits

theorem plainDigits_of_digits : plainDigits cs = cs := by
  rw [plainDigits, strip_of_trimmed (.of_solid fun c hc => isBlank_of_isDigit (digits c hc))]
  refine (List.map_congr_left (g := id) fun c hc => ?_).trans (List.map_id cs)
  have bounds := toNat_bounds_of_isDigit (digits c hc)
  rw [digitValue?, if_pos (digits c hc)]
  dsimp only
  rw [Nat.add_sub_cancel' bounds.1, Char.ofNat_toNat, id]

theorem dropUnderscores?_of_digits (last : Option Char) : dropUnderscores? last cs = some cs := by
  induction cs generalizing last with
  | nil => rfl
  | cons c cs ih =>
    rw [List.forall_mem_cons] at digits
    have other : c ≠ '_' := by
      rintro rfl
      exact absurd digits.1 (by decide)
    rw [dropUnderscores?.eq_3 _ _ _ other, ih digits.2]
    rfl

theorem splitSign_of_digits : splitSign cs = (false, cs) := by
  cases cs with
  | nil => rfl
  | cons c cs =>
    have first := digits c (.head _)
    unfold splitSign
    split
    · next same =>
      cases same
      exact absurd first (by decide)
    · next same =>
      cases same
      exact absurd first (by decide)
    · rfl

theorem digitsOnly?_of_digits (filled : cs ≠ []) :
    digitsOnly? cs = some (Nat.ofDigitChars 10 cs 0) := by
  rw [digitsOnly?, takeDigits_of_digits digits]
  cases cs with
  | nil => exact absurd rfl filled
  | cons c cs => rfl

end

theorem isDigit_of_mem_toString (n : Nat) : ∀ c ∈ (toString n).toList, c.isDigit = true := by
  intro c hc
  rw [Nat.toString_eq_repr, Nat.toList_repr] at hc
  exact Nat.isDigit_of_mem_toDigits (by decide) (by decide) hc

/-- A number that is written out is read as itself. -/
theorem readInteger?_toString (n : Nat) : readInteger? (toString n) = some (n : Int) := by
  have digits := isDigit_of_mem_toString n
  rw [Nat.toString_eq_repr, Nat.toList_repr] at digits
  rw [readInteger?, Nat.toString_eq_repr, Nat.toList_repr, plainDigits_of_digits digits,
    dropUnderscores?_of_digits digits]
  simp only [Option.bind_eq_bind, Option.bind_some, splitSign_of_digits digits,
    digitsOnly?_of_digits digits Nat.toDigits_ne_nil,
    Nat.ofDigitChars_toDigits (b := 10) (by decide) (by decide)]
  rfl

end Number

namespace Tag

open Text

variable {part core : List Char}

theorem directive?_of_nothing (h : strip part = []) : directive? part = none := by
  rw [directive?, h]

theorem directive?_of_word (h : strip part = core) (filled : core ≠ []) (bare : '=' ∉ core) :
    directive? part = some (String.ofList core, .bool true) := by
  obtain ⟨c, cs, rfl⟩ := List.exists_cons_of_ne_nil filled
  rw [directive?, h]
  simp [bare]

/-- The tag that asks for what lies between two numbers. -/
def between (low high : Nat) : String := "min=" ++ toString low ++ ",max=" ++ toString high

/-- The bare word that asks for a value, between blanks. -/
def AsksForValue (part : List Char) : Prop :=
  ∃ before after, (∀ c ∈ before, isBlank c = true) ∧ (∀ c ∈ after, isBlank c = true) ∧
    part = before ++ requiredKey.toList ++ after

/-- A tag that asks for a value and for nothing else: the bare word, any number of times, with blanks
around it and parts without anything in between. -/
def AsksForValueOnly (tag : String) : Prop :=
  ∃ parts : List (List Char), tag.toList = [','].intercalate parts ∧
    (∀ part ∈ parts, (∀ c ∈ part, isBlank c = true) ∨ AsksForValue part) ∧
    ∃ part ∈ parts, AsksForValue part

theorem directive?_of_asksForValue (h : AsksForValue part) :
    directive? part = some (requiredKey, .bool true) := by
  obtain ⟨before, after, blank, blank', rfl⟩ := h
  have solid : ∀ c ∈ requiredKey.toList, isBlank c = false := solid_of_all (by decide)
  exact directive?_of_word (strip_between blank blank' (.of_solid solid)) (by decide) (by decide)

theorem directive?_of_blank (h : ∀ c ∈ part, isBlank c = true) : directive? part = none := by
  apply directive?_of_nothing
  have around : strip (part ++ [] ++ []) = [] := strip_between h nofun ⟨nofun, nofun⟩
  simpa using around

theorem comma_not_mem_of_blank (h : ∀ c ∈ part, isBlank c = true) : ',' ∉ part := fun mem => by
  have blank := h _ mem
  revert blank
  decide

theorem comma_not_mem_of_asksForValue (h : AsksForValue part) : ',' ∉ part := by
  obtain ⟨before, after, blank, blank', rfl⟩ := h
  simp only [List.mem_append, not_or]
  exact ⟨⟨comma_not_mem_of_blank blank, by decide⟩, comma_not_mem_of_blank blank'⟩

/-- Entering one directive over and over is entering it once. -/
theorem foldl_put_same {d : String × Value} {ds : List (String × Value)} (same : ∀ e ∈ ds, e = d) :
    ds.foldl (fun l e => Listing.put e.1 e.2 l) [d] = [d] := by
  induction ds with
  | nil => rfl
  | cons e ds ih =>
    rw [List.forall_mem_cons] at same
    obtain ⟨rfl, rest⟩ := same
    rw [List.foldl_cons]
    simpa [Listing.put] using ih rest

theorem parse_of_asksForValueOnly {tag : String} (h : AsksForValueOnly tag) :
    parse tag = [(requiredKey, .bool true)] := by
  obtain ⟨parts, text, each, asking, mem, asks⟩ := h
  have free : ∀ part ∈ parts, ',' ∉ part := fun part hp =>
    (each part hp).elim comma_not_mem_of_blank comma_not_mem_of_asksForValue
  rw [parse, text, splitAt_intercalate (List.ne_nil_of_mem mem) free]
  have same : ∀ d ∈ parts.filterMap directive?, d = (requiredKey, .bool true) := by
    intro d hd
    obtain ⟨part, hp, found⟩ := List.mem_filterMap.mp hd
    rcases each part hp with blank | asks
    · rw [directive?_of_blank blank] at found
      cases found
    · rw [directive?_of_asksForValue asks] at found
      exact (Option.some.inj found).symm
  have some : (requiredKey, Value.bool true) ∈ parts.filterMap directive? :=
    List.mem_filterMap.mpr ⟨asking, mem, directive?_of_asksForValue asks⟩
  obtain ⟨d, ds, directives⟩ := List.exists_cons_of_ne_nil (List.ne_nil_of_mem some)
  rw [directives, List.forall_mem_cons] at same
  obtain ⟨rfl, rest⟩ := same
  rw [directives]
  exact foldl_put_same rest

end Tag

end Conform
