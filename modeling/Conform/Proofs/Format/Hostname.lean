import Mathlib
import Conform.Format.Host
import Conform.Proofs.Pattern.Language

/-! Host names. What the pattern of the check takes are labels with dots between them; at the very
end it overlooks one line break. -/
namespace Conform.Format

open Pattern

/-- A label: up to 63 letters, digits and hyphens, and no hyphen at either end. -/
structure HostLabel (cs : List Char) : Prop where
  filled : cs ≠ []
  short : cs.length ≤ 63
  letters : ∀ c ∈ cs, c.isAlphanum = true ∨ c = '-'
  first : cs.head? ≠ some '-'
  last : cs.getLast? ≠ some '-'

/-- Labels, at least one, with single dots between them. -/
def HostName (cs : List Char) : Prop :=
  ∃ labels : List (List Char), labels ≠ [] ∧ (∀ l ∈ labels, HostLabel l) ∧
    cs = ['.'].intercalate labels

/-- The text of the pattern means its pieces. -/
theorem compile_hostnamePattern :
    Pattern.compile hostnamePattern.source = .ok hostnamePattern :=
  compile_eq_ok (by decide +kernel)

/-- What may stand inside of a label. -/
def isInner (c : Char) : Bool := c.isAlphanum || c == '-'

/-- The words of the pattern for a label. -/
def labelWords : Language Char :=
  oneOf Char.isAlphanum +
    oneOf Char.isAlphanum * (rounds (oneOf isInner) 0 (some 61) 0 * oneOf Char.isAlphanum)

/-- The words of the whole pattern. -/
def hostWords : Language Char :=
  labelWords * rounds (oneOf (· == '.') * labelWords) 0 none 0

section

variable {flags : Flags} {text : Array Char} (cased : flags.ignoreCase = false)
include cased

theorem any_holds_alphanum (c : Char) : ([.range 97 122, .range 65 90, .range 48 57] :
    List Item).any (·.holds flags c) = c.isAlphanum := by
  rw [Bool.eq_iff_iff]
  simp [Item.holds, rangeHolds, cased, Char.isAlphanum, Char.isAlpha, Char.isUpper, Char.isLower,
    Char.isDigit, UInt32.le_iff_toNat_le]
  omega

theorem takes?_labelEdge (c : Char) : labelEdge.takes? flags c = some c.isAlphanum := by
  rw [labelEdge, Piece.takes?, any_holds_alphanum cased, Bool.bne_false]

theorem takes?_labelInner (c : Char) : labelInner.takes? flags c = some (isInner c) := by
  have parts : labelInner = .set false ([.range 97 122, .range 65 90, .range 48 57] ++
      [.literal '-'.toNat]) := rfl
  rw [parts, Piece.takes?, List.any_append, any_holds_alphanum cased, List.any_cons, List.any_nil,
    Bool.or_false, Item.holds, sameLetter_toNat cased, Bool.bne_false]
  rfl

theorem recognizes_label : label.Recognizes text flags labelWords := by
  have edge : labelEdge.Recognizes text flags (oneOf Char.isAlphanum) :=
    recognizes_oneOf (takes?_labelEdge cased)
  have inner : labelInner.Recognizes text flags (oneOf isInner) :=
    recognizes_oneOf (takes?_labelInner cased)
  have one := recognizes_cons edge recognizes_nil
  have between : (Piece.repetition .greedy 0 (some 61) [labelInner]).Recognizes text flags
      (rounds (oneOf isInner * 1) 0 (some 61) 0) :=
    recognizes_repetition (recognizes_cons inner recognizes_nil)
      (nil_not_mem_mul nil_not_mem_oneOf) fun m _ => Nat.zero_le m
  have more := recognizes_cons edge (recognizes_cons between one)
  have either := recognizes_branch (.cons one (.cons more .nil))
  simp only [List.sum_cons, List.sum_nil, mul_one, add_zero] at either
  exact either

theorem recognizes_group_label (n : Nat) :
    (Piece.group (some n) {} {} [label]).Recognizes text flags labelWords := by
  have words : Recognizes text flags [label] (labelWords * 1) :=
    recognizes_cons (recognizes_label cased) recognizes_nil
  rw [mul_one] at words
  exact recognizes_group (within_nothing flags) words

theorem recognizes_dotted :
    Recognizes text flags [.group (some 2) {} {} [.literal 46, .group (some 3) {} {} [label]]]
      (oneOf (· == '.') * labelWords) := by
  have dot : (Piece.literal 46).Recognizes text flags (oneOf (· == '.')) :=
    recognizes_literal cased '.'
  have words := recognizes_cons dot
    (recognizes_cons (recognizes_group_label cased 3) recognizes_nil)
  have group : (Piece.group (some 2) {} {} _).Recognizes text flags _ :=
    recognizes_group (within_nothing flags) words
  have alone := recognizes_cons group recognizes_nil
  simp only [mul_one] at alone
  exact alone

end

theorem mem_labelWords {word : List Char} : word ∈ labelWords ↔ HostLabel word := by
  have hyphen {c : Char} (alnum : c.isAlphanum = true) : c ≠ '-' := by
    rintro rfl
    exact absurd alnum (by decide)
  have ending (c d : Char) (m : List Char) : (c :: (m ++ [d])).getLast? = some d := by
    rw [← List.cons_append, List.getLast?_concat]
  constructor
  · rintro (⟨c, alnum, rfl⟩ | ⟨_, ⟨c, alnum, rfl⟩, _, ⟨m, mem, _, ⟨d, alnum', rfl⟩, rfl⟩, rfl⟩)
    · exact ⟨nofun, by simp, by simp [alnum], by simp [hyphen alnum], by simp [hyphen alnum]⟩
    · obtain ⟨inner, -, short⟩ := mem_rounds_oneOf.mp mem
      have few := short 61 rfl
      have letters : ∀ c ∈ m, c.isAlphanum = true ∨ c = '-' := fun c hc => by
        simpa [isInner] using inner c hc
      refine ⟨nofun, ?_, ?_, by simp [hyphen alnum], ?_⟩
      · simp only [List.length_append, List.length_singleton]
        omega
      · simp only [List.forall_mem_append, List.forall_mem_singleton]
        exact ⟨.inl alnum, letters, .inl alnum'⟩
      · exact (ending c d m).symm ▸ fun same => hyphen alnum' (Option.some.inj same)
  · rintro ⟨filled, short, letters, first, last⟩
    obtain ⟨c, cs, rfl⟩ := List.exists_cons_of_ne_nil filled
    have alnum : c.isAlphanum = true :=
      (letters c (.head _)).resolve_right (by simpa using first)
    rcases List.eq_nil_or_concat cs with rfl | ⟨m, d, rfl⟩
    · exact .inl ⟨c, alnum, rfl⟩
    · have alnum' : d.isAlphanum = true :=
        (letters d (by simp)).resolve_right (by simpa [ending] using last)
      refine .inr ⟨[c], ⟨c, alnum, rfl⟩, m ++ [d], ⟨m, ?_, [d], ⟨d, alnum', rfl⟩, rfl⟩, ?_⟩
      · refine mem_rounds_oneOf.mpr ⟨fun e he => ?_, Nat.zero_le _, ?_⟩
        · simpa [isInner] using letters e (by simp [he])
        · rintro _ ⟨⟩
          simp at short
          omega
      · simp

theorem intercalate_cons_eq (l : List Char) (ls : List (List Char)) :
    ['.'].intercalate (l :: ls) = l ++ ls.flatMap ('.' :: ·) := by
  induction ls generalizing l with
  | nil => simp
  | cons next ls ih =>
    rw [List.intercalate_cons_cons, ih, List.flatMap_cons, List.append_assoc]
    rfl

theorem mem_hostWords {word : List Char} : word ∈ hostWords ↔ HostName word := by
  have dotted (w : List Char) :
      w ∈ oneOf (· == '.') * labelWords ↔ ∃ l, HostLabel l ∧ w = '.' :: l := by
    simp only [mem_oneOf_mul, mem_labelWords]
  constructor
  · rintro ⟨l, mem, _, mem', rfl⟩
    obtain ⟨ls, each, rfl, -⟩ := (mem_rounds_iff_exists dotted).mp mem'
    refine ⟨l :: ls, nofun, ?_, (intercalate_cons_eq l ls).symm⟩
    exact List.forall_mem_cons.mpr ⟨mem_labelWords.mp mem, each⟩
  · rintro ⟨labels, filled, each, rfl⟩
    obtain ⟨l, ls, rfl⟩ := List.exists_cons_of_ne_nil filled
    rw [List.forall_mem_cons] at each
    rw [intercalate_cons_eq]
    refine ⟨l, mem_labelWords.mpr each.1, _, ?_, rfl⟩
    exact (mem_rounds_iff_exists dotted).mpr ⟨ls, each.2, rfl, Nat.zero_le _, nofun⟩

/-- What is left behind the words of the pattern is nothing, or the line break that ends the
text. -/
theorem decides_hostname (text : Array Char) :
    Decides text [.pieces hostnamePattern.flags hostnamePattern.pieces]
      (stepsOf text.size hostnamePattern.pieces + 2) text.toList
      (Splits hostWords (fun after => after = [] ∨ after = ['\n']) text.toList) := by
  let flags : Flags := { unicode := true }
  have first : (Piece.group (some 1) {} {} [label]).Recognizes text flags labelWords :=
    recognizes_group_label rfl 1
  have others : (Piece.repetition .greedy 0 none _).Recognizes text flags _ :=
    recognizes_repetition (recognizes_dotted rfl) (nil_not_mem_mul nil_not_mem_oneOf) nofun
  have whole := decides_lineStart (first fun _ behind _ _ => others fun _ tail _ _ =>
    decides_end rfl tail)
  have anchors (kind : Anchor) : (Piece.anchor kind).steps text.size = 2 := rfl
  rw [← splits_mul] at whole
  refine whole.mono ?_
  unfold hostnamePattern
  simp only [stepsOf, anchors]
  omega

theorem isBlank_of_isAlphanum {c : Char} (alnum : c.isAlphanum = true) :
    Text.isBlank c = false := by
  simp only [Char.isAlphanum, Char.isAlpha, Char.isUpper, Char.isLower, Char.isDigit,
    Bool.or_eq_true, Bool.and_eq_true, decide_eq_true_eq, UInt32.le_iff_toNat_le,
    ge_iff_le] at alnum
  change ((65 ≤ c.toNat ∧ c.toNat ≤ 90) ∨ 97 ≤ c.toNat ∧ c.toNat ≤ 122) ∨
    48 ≤ c.toNat ∧ c.toNat ≤ 57 at alnum
  simp only [Text.isBlank, Bool.or_eq_false_iff, Bool.and_eq_false_iff, decide_eq_false_iff_not,
    beq_eq_false_iff_ne]
  omega

theorem HostLabel.not_blank {cs : List Char} (h : HostLabel cs) :
    ∀ c ∈ cs, Text.isBlank c = false := fun c hc => by
  rcases h.letters c hc with alnum | rfl
  · exact isBlank_of_isAlphanum alnum
  · decide

theorem HostName.not_blank {cs : List Char} (h : HostName cs) :
    ∀ c ∈ cs, Text.isBlank c = false := by
  obtain ⟨labels, filled, each, rfl⟩ := h
  obtain ⟨l, ls, rfl⟩ := List.exists_cons_of_ne_nil filled
  rw [List.forall_mem_cons] at each
  rw [intercalate_cons_eq, List.forall_mem_append]
  refine ⟨each.1.not_blank, fun c hc => ?_⟩
  obtain ⟨next, mem, hc⟩ := List.mem_flatMap.mp hc
  rcases List.mem_cons.mp hc with rfl | hc
  · decide
  · exact (each.2 next mem).not_blank c hc

/-- The pattern takes a host name, or one with a line break behind it. -/
theorem matchesStart_hostname_iff (s : String) : hostnamePattern.matchesStart s = true ↔
    HostName s.toList ∨ ∃ name, HostName name ∧ s.toList = name ++ ['\n'] := by
  have decided : hostnamePattern.matchesStart s = true ↔
      Splits hostWords (fun after => after = [] ∨ after = ['\n']) s.toList :=
    matchesStart_iff (decides_hostname s.toList.toArray)
  rw [decided]
  constructor
  · rintro ⟨name, mem, after, whole, rfl | rfl⟩
    · rw [List.append_nil] at whole
      exact .inl (whole ▸ mem_hostWords.mp mem)
    · exact .inr ⟨name, mem_hostWords.mp mem, whole⟩
  · rintro (isName | ⟨name, isName, whole⟩)
    · exact ⟨_, mem_hostWords.mpr isName, [], (List.append_nil _).symm, .inl rfl⟩
    · exact ⟨name, mem_hostWords.mpr isName, _, whole, .inr rfl⟩

/-- In a host name with a line break behind it, only that line break is blank. -/
theorem eq_line_break_of_blank {name before after : List Char} {c : Char} (isName : HostName name)
    (cut : name ++ ['\n'] = before ++ c :: after) (blank : Text.isBlank c = true) :
    c = '\n' ∧ after = [] := by
  rcases List.eq_nil_or_concat after with rfl | ⟨after, d, rfl⟩
  · obtain ⟨-, last⟩ := List.append_inj' cut rfl
    exact ⟨(List.singleton_inj.mp last).symm, rfl⟩
  · rw [List.concat_eq_append, ← List.cons_append, ← List.append_assoc] at cut
    obtain ⟨rfl, -⟩ := List.append_inj' cut rfl
    rw [isName.not_blank c (by simp)] at blank
    cases blank

/-- The check takes host names of up to 255 characters, and the same with a line break at the end,
which counts. No other blank is taken. -/
theorem isHostname_iff (s : String) :
    (isHostname s = true ↔ s.length ≤ 255 ∧
      (HostName s.toList ∨ ∃ name, HostName name ∧ s.toList = name ++ ['\n'])) ∧
    (isHostname s = true → ∀ before c after, s.toList = before ++ c :: after →
      Text.isBlank c = true → c = '\n' ∧ after = []) := by
  have taken : isHostname s = true ↔ s.length ≤ 255 ∧
      (HostName s.toList ∨ ∃ name, HostName name ∧ s.toList = name ++ ['\n']) := by
    rw [isHostname, Bool.and_eq_true, decide_eq_true_eq, matchesStart_hostname_iff]
  refine ⟨taken, fun accepted before c after cut blank => ?_⟩
  obtain ⟨-, isName | ⟨name, isName, whole⟩⟩ := taken.mp accepted
  · rw [isName.not_blank c (by simp [cut])] at blank
    cases blank
  · exact eq_line_break_of_blank isName (whole ▸ cut) blank

/-- A line break is taken that no label can hold. -/
theorem isHostname_line_break :
    let s := "a.example\n"
    isHostname s = true ∧ s.length ≤ 255 ∧ ¬ HostName s.toList ∧ '\n' ∈ s.toList := by
  intro s
  refine ⟨by decide, by decide, fun isName => ?_, by decide⟩
  have blank := isName.not_blank '\n' (by decide)
  revert blank
  decide

end Conform.Format
