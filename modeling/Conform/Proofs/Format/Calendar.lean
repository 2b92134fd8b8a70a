import Mathlib.Tactic.IntervalCases
import Conform.Proofs.Format.Digits
import Conform.Proofs.Pattern.Groups

/-! Dates and times of day. Each check takes what its name asks for, in digits of any script where
they decide nothing. The pattern overlooks a line break at the end, but it stays with the last field
and fails there. -/
namespace Conform.Format

open Pattern

/-- The days of a month in the calendar of Gregory. -/
def monthLength (year : Nat) : Nat → Nat
  | 1 | 3 | 5 | 7 | 8 | 10 | 12 => 31
  | 4 | 6 | 9 | 11 => 30
  | 2 => if 4 ∣ year ∧ (100 ∣ year → 400 ∣ year) then 29 else 28
  | _ => 0

/-- A year, a month and a day of it, with hyphens between them. -/
inductive CalendarDate (digit : Char → Option Nat) : List Char → Prop
  | intro {y m d : List Char} {year month day : Nat} (wy : Writes digit 4 year y)
      (wm : Writes digit 2 month m) (wd : Writes digit 2 day d) (year_pos : 1 ≤ year)
      (day_pos : 1 ≤ day) (day_le : day ≤ monthLength year month) :
      CalendarDate digit (y ++ '-' :: (m ++ '-' :: d))

/-- An hour and a minute of it, with a colon between them. -/
inductive HourMinute (digit : Char → Option Nat) : List Char → Prop
  | intro {h m : List Char} {hour minute : Nat} (wh : Writes digit 2 hour h)
      (wm : Writes digit 2 minute m) (hour_lt : hour < 24) (minute_lt : minute < 60) :
      HourMinute digit (h ++ ':' :: m)

/-- An hour, a minute and a second, with colons between them. -/
inductive ClockTime (digit : Char → Option Nat) : List Char → Prop
  | intro {hm s : List Char} {second : Nat} (whm : HourMinute digit hm)
      (ws : Writes digit 2 second s) (second_lt : second < 60) : ClockTime digit (hm ++ ':' :: s)

section

variable {text : Array Char} {flags : Flags}

/-- The words of so many digits of any script. -/
def digitWords (n : Nat) : Language Char := rounds (oneOf Text.isDigit) n (some n) 0

theorem mem_digitWords {n : Nat} {word : List Char} :
    word ∈ digitWords n ↔ word.length = n ∧ ∀ c ∈ word, Text.isDigit c = true := by
  rw [digitWords, mem_rounds_oneOf]
  simp only [Option.mem_some_iff, forall_eq']
  grind

theorem takes?_digit (scripts : flags.ascii = false) (c : Char) :
    (Piece.set false [.category .digit false]).takes? flags c = some (Text.isDigit c) := by
  simp [Piece.takes?, Item.holds, Category.holds, scripts]

theorem covers_digits (scripts : flags.ascii = false) (n : Nat) :
    (digits n).Covers text flags (digitWords n) :=
  covers_rounds (takes?_digit scripts) (by simp)

theorem covers_pair (scripts : flags.ascii = false) :
    Covers text flags [digits 2] (digitWords 2) := by
  have words : Covers text flags [digits 2] (digitWords 2 * 1) :=
    covers_cons (covers_digits scripts 2) covers_nil
  rwa [mul_one] at words

/-- The words of three fields of digits with a separator between them; the first has its own
width. -/
def fieldWords (separator : Char) (width : Nat) : Language Char :=
  digitWords width * (oneOf (· == separator) * (digitWords 2 * (oneOf (· == separator) *
    digitWords 2)))

theorem mem_fieldWords {separator : Char} {width : Nat} {word : List Char} :
    word ∈ fieldWords separator width ↔ ∃ a ∈ digitWords width, ∃ b ∈ digitWords 2,
      ∃ c ∈ digitWords 2, word = a ++ separator :: (b ++ separator :: c) := by
  constructor
  · rintro ⟨a, ha, _, behind, rfl⟩
    obtain ⟨_, ⟨b, hb, _, behind', rfl⟩, rfl⟩ := mem_oneOf_mul.mp behind
    obtain ⟨c, hc, rfl⟩ := mem_oneOf_mul.mp behind'
    exact ⟨a, ha, b, hb, c, hc, rfl⟩
  · rintro ⟨a, ha, b, hb, c, hc, rfl⟩
    exact ⟨a, ha, _, mem_oneOf_mul.mpr ⟨_, ⟨b, hb, _, mem_oneOf_mul.mpr ⟨c, hc, rfl⟩, rfl⟩, rfl⟩,
      rfl⟩

theorem covers_fields (cased : flags.ignoreCase = false) (scripts : flags.ascii = false)
    (separator : Char) (width : Nat) :
    Covers text flags (fieldShape separator width) (fieldWords separator width) := by
  have between : (Piece.literal separator.toNat).Covers text flags _ :=
    covers_literal cased separator
  exact covers_cons (covers_digits scripts width) (covers_cons between
    (covers_cons (covers_digits scripts 2) (covers_cons between (covers_pair scripts))))

theorem decides_fields (separator : Char) (width : Nat) :
    let pieces := .anchor .lineStart :: fieldShape separator width ++ [.anchor .lineEnd]
    Decides text [.pieces { unicode := true } pieces] (stepsOf text.size pieces + 2) text.toList
      (Splits (fieldWords separator width) AtEnd text.toList) := by
  let flags : Flags := { unicode := true }
  have field (n : Nat) : (digits n).Recognizes text flags (digitWords n) :=
    (covers_digits rfl n).recognizes
  have between : (Piece.literal separator.toNat).Recognizes text flags (oneOf (· == separator)) :=
    (covers_literal rfl separator).recognizes
  have whole := decides_lineStart (field width fun _ a _ _ => between fun _ b _ _ =>
    field 2 fun _ c _ _ => between fun _ d _ _ => field 2 fun _ tail _ _ => decides_end rfl tail)
  have anchors (kind : Anchor) : (Piece.anchor kind).steps text.size = 2 := rfl
  simp only [← splits_mul] at whole
  refine whole.mono ?_
  simp only [stepsOf, anchors, fieldShape, List.cons_append, List.nil_append]
  omega

end

/-- At this place stands a digit from `0` to `9`. -/
def AsciiAt (cs : List Char) (i : Nat) : Prop := (cs[i]?).any Char.isDigit = true

/-- The digits of a date that may not be of another script: both of the month, the first of the day,
and the second where the first leaves no free choice of it. -/
def PinnedDate (cs : List Char) : Prop :=
  (AsciiAt cs 5 ∧ AsciiAt cs 6) ∧ AsciiAt cs 8 ∧
    (cs[8]? = some '0' ∨ cs[8]? = some '3' → AsciiAt cs 9)

/-- The same of a time of day: the first of every field, and the second of an hour from 20 on. -/
def PinnedTime (cs : List Char) : Prop :=
  (AsciiAt cs 0 ∧ (cs[0]? = some '2' → AsciiAt cs 1)) ∧ AsciiAt cs 3 ∧ AsciiAt cs 6

theorem not_mem_digitWords {c : Char} (other : Text.isDigit c = false) {n : Nat} {word : List Char}
    (digits : word ∈ digitWords n) : c ∉ word := by
  intro mem
  rw [(mem_digitWords.mp digits).2 c mem] at other
  cases other

/-- The fields are found again, and what stands behind them stays with the last. -/
theorem splitAt_fields {separator : Char} {width : Nat} {a b c after : List Char}
    (other : Text.isDigit separator = false) (inline : separator ≠ '\n')
    (ha : a ∈ digitWords width) (hb : b ∈ digitWords 2) (hc : c ∈ digitWords 2)
    (ends : AtEnd after) :
    Text.splitAt separator (a ++ separator :: (b ++ separator :: c) ++ after) =
      [a, b, c ++ after] := by
  have absent : separator ∉ c ++ after := by
    rw [List.mem_append, not_or]
    refine ⟨not_mem_digitWords other hc, ?_⟩
    rcases ends with rfl | rfl <;> simp [inline]
  rw [List.append_assoc, List.cons_append, List.append_assoc, List.cons_append,
    Text.splitAt_append_cons (not_mem_digitWords other ha),
    Text.splitAt_append_cons (not_mem_digitWords other hb), Text.splitAt_of_not_mem absent]

/-- A check of the fields that takes no last field longer than it should be sees the three words of
digits and no line break behind them. -/
theorem hasFields_iff {pattern : Pattern} {separator : Char} {width : Nat}
    {check : List Char → List Char → List Char → Bool} (s : String)
    (shape : pattern.matchesStart s = true ↔ Splits (fieldWords separator width) AtEnd s.toList)
    (other : Text.isDigit separator = false) (inline : separator ≠ '\n')
    (short : ∀ a b c, check a b c = true → c.length ≤ 2) :
    hasFields pattern separator check s = true ↔
      ∃ a ∈ digitWords width, ∃ b ∈ digitWords 2, ∃ c ∈ digitWords 2,
        s.toList = a ++ separator :: (b ++ separator :: c) ∧ check a b c = true := by
  rw [hasFields, Bool.and_eq_true, shape]
  constructor
  · rintro ⟨⟨_, mem, after, whole, ends⟩, valid⟩
    obtain ⟨a, ha, b, hb, c, hc, rfl⟩ := mem_fieldWords.mp mem
    rw [whole, splitAt_fields other inline ha hb hc ends] at valid
    obtain rfl : after = [] := by
      have limit := short _ _ _ valid
      rw [List.length_append, (mem_digitWords.mp hc).1] at limit
      exact List.length_eq_zero_iff.mp (by omega)
    rw [List.append_nil] at valid whole
    exact ⟨a, ha, b, hb, c, hc, whole, valid⟩
  · rintro ⟨a, ha, b, hb, c, hc, whole, valid⟩
    have split := splitAt_fields other inline ha hb hc (.inl rfl)
    rw [List.append_nil, List.append_nil, ← whole] at split
    rw [split]
    refine ⟨⟨_, mem_fieldWords.mpr ⟨a, ha, b, hb, c, hc, rfl⟩, [], ?_, .inl rfl⟩, valid⟩
    rw [whole, List.append_nil]

theorem mem_digitWords_of_writes {n v : Nat} {cs : List Char}
    (h : Writes Text.digitValue? n v cs) : cs ∈ digitWords n := by
  refine mem_digitWords.mpr ⟨h.width, fun c mem => ?_⟩
  obtain ⟨d, value⟩ := h.exists_digit mem
  rw [Text.isDigit, value, Option.isSome_some]

theorem exists_pair {cs : List Char} (h : cs ∈ digitWords 2) : ∃ a b x z, cs = [a, b] ∧
    Text.digitValue? a = some x ∧ Text.digitValue? b = some z := by
  obtain ⟨width, digits⟩ := mem_digitWords.mp h
  obtain ⟨a, b, rfl⟩ := List.length_eq_two.mp width
  obtain ⟨x, first⟩ := Option.isSome_iff_exists.mp (digits a (by simp))
  obtain ⟨z, second⟩ := Option.isSome_iff_exists.mp (digits b (by simp))
  exact ⟨a, b, x, z, rfl, first, second⟩

theorem isLeapYear_iff (year : Nat) :
    isLeapYear year = true ↔ 4 ∣ year ∧ (100 ∣ year → 400 ∣ year) := by
  simp only [isLeapYear, Bool.and_eq_true, Bool.or_eq_true, beq_iff_eq, bne_iff_ne]
  omega

theorem daysInMonth_eq {year month : Nat} (first : 1 ≤ month) (last : month ≤ 12) :
    daysInMonth year month = monthLength year month := by
  interval_cases month <;> simp [daysInMonth, monthLength, isLeapYear_iff]

/-- Only the months of the year have days. -/
theorem month_of_monthLength_pos {year month : Nat} (h : 1 ≤ monthLength year month) :
    1 ≤ month ∧ month ≤ 12 := by
  fun_cases monthLength year month <;> first | omega | simp [monthLength] at h

theorem monthLength_le (year month : Nat) : monthLength year month ≤ 31 := by
  fun_cases monthLength year month <;> omega

theorem isCalendarDay_iff_exists {y m d : List Char} : isCalendarDay y m d = true ↔
    ∃ year month day, number? y = some year ∧ month? m = some month ∧ day? d = some day ∧
      y.length = 4 ∧ 1 ≤ year ∧ day ≤ daysInMonth year month := by
  have yes (o : Option Bool) : o.getD false = true ↔ o = some true := by cases o <;> simp
  simp only [isCalendarDay, yes, Option.bind_eq_bind, Option.bind_eq_some_iff, Option.pure_def,
    Option.some.injEq, Bool.and_eq_true, beq_iff_eq, decide_eq_true_eq]
  grind

theorem isCalendarDay_iff {y : List Char} {a b e f : Char} {u v x z : Nat} (width : y.length = 4)
    (ha : Text.digitValue? a = some u) (hb : Text.digitValue? b = some v)
    (he : Text.digitValue? e = some x) (hf : Text.digitValue? f = some z) :
    isCalendarDay y [a, b] [e, f] = true ↔
      (∃ year, Writes Text.digitValue? 4 year y ∧ 1 ≤ year ∧ 1 ≤ 10 * x + z ∧
        10 * x + z ≤ monthLength year (10 * u + v)) ∧
      (a.isDigit = true ∧ b.isDigit = true) ∧ e.isDigit = true ∧
        (e = '0' ∨ e = '3' → f.isDigit = true) := by
  simp only [isCalendarDay_iff_exists, number?_eq_some_iff, month?_eq_some_iff ha hb,
    day?_eq_some_iff he hf, width]
  constructor
  · rintro ⟨year, _, _, reads, ⟨⟨rfl, first, last⟩, pinned⟩, ⟨⟨rfl, one, -⟩, pinned'⟩, -, ce, fits⟩
    rw [daysInMonth_eq first last] at fits
    exact ⟨⟨year, reads, ce, one, fits⟩, pinned, pinned'⟩
  · rintro ⟨⟨year, reads, ce, one, fits⟩, pinned, pinned'⟩
    obtain ⟨first, last⟩ := month_of_monthLength_pos (one.trans fits)
    refine ⟨year, _, _, reads, ⟨⟨rfl, first, last⟩, pinned⟩,
      ⟨⟨rfl, one, fits.trans (monthLength_le _ _)⟩, pinned'⟩, trivial, ce, ?_⟩
    rwa [daysInMonth_eq first last]

theorem pinnedDate_iff {y : List Char} {a b e f : Char} (width : y.length = 4) :
    PinnedDate (y ++ '-' :: ([a, b] ++ '-' :: [e, f])) ↔ (a.isDigit = true ∧ b.isDigit = true) ∧
      e.isDigit = true ∧ (e = '0' ∨ e = '3' → f.isDigit = true) := by
  obtain ⟨_, _, _, _, rfl⟩ := List.length_eq_four.mp width
  simp [PinnedDate, AsciiAt]

theorem pinnedTime_iff {a b e f g h : Char} :
    PinnedTime ([a, b] ++ ':' :: [e, f] ++ ':' :: [g, h]) ↔ (a.isDigit = true ∧
      (a = '2' → b.isDigit = true)) ∧ e.isDigit = true ∧ g.isDigit = true := by
  simp [PinnedTime, AsciiAt]

theorem isMoment_iff {a b c d e f : Char} {u v r t x z : Nat}
    (ha : Text.digitValue? a = some u) (hb : Text.digitValue? b = some v)
    (hc : Text.digitValue? c = some r) (hd : Text.digitValue? d = some t)
    (he : Text.digitValue? e = some x) (hf : Text.digitValue? f = some z) :
    isMoment [a, b] [c, d] [e, f] = true ↔
      (10 * u + v < 24 ∧ 10 * r + t < 60 ∧ 10 * x + z < 60) ∧
        (a.isDigit = true ∧ (a = '2' → b.isDigit = true)) ∧ c.isDigit = true ∧
          e.isDigit = true := by
  simp only [isMoment, Bool.and_eq_true, Option.isSome_iff_exists, hour?_eq_some_iff ha hb,
    minute?_eq_some_iff hc hd, second?_below_iff he hf]
  grind

/-- The texts of the patterns mean their pieces. -/
theorem compile_datePattern : Pattern.compile datePattern.source = .ok datePattern :=
  compile_eq_ok (by decide +kernel)

theorem compile_timePattern : Pattern.compile timePattern.source = .ok timePattern :=
  compile_eq_ok (by decide +kernel)

/-- The check of dates takes dates of the calendar, as long as the digits that decide are not of
another script. -/
theorem isDate_iff (s : String) :
    isDate s = true ↔ CalendarDate Text.digitValue? s.toList ∧ PinnedDate s.toList := by
  have short (y m d : List Char) (h : isCalendarDay y m d = true) : d.length ≤ 2 := by
    obtain ⟨-, -, _, -, -, day, -⟩ := isCalendarDay_iff_exists.mp h
    exact length_le_of_day? day
  rw [isDate, hasFields_iff s (matchesStart_iff (decides_fields '-' 4)) rfl (by decide) short]
  generalize s.toList = cs
  constructor
  · rintro ⟨y, hy, m, hm, d, hd, rfl, valid⟩
    have width := (mem_digitWords.mp hy).1
    obtain ⟨a, b, u, v, rfl, ha, hb⟩ := exists_pair hm
    obtain ⟨e, f, x, z, rfl, he, hf⟩ := exists_pair hd
    rw [isCalendarDay_iff width ha hb he hf, ← pinnedDate_iff width] at valid
    obtain ⟨⟨year, reads, ce, one, fits⟩, pinned⟩ := valid
    exact ⟨.intro reads (writes_pair.mpr ⟨a, b, u, v, rfl, ha, hb, rfl⟩)
      (writes_pair.mpr ⟨e, f, x, z, rfl, he, hf, rfl⟩) ce one fits, pinned⟩
  · rintro ⟨@⟨y, m, d, year, _, _, wy, wm, wd, ce, one, fits⟩, pinned⟩
    refine ⟨y, mem_digitWords_of_writes wy, m, mem_digitWords_of_writes wm, d,
      mem_digitWords_of_writes wd, rfl, ?_⟩
    obtain ⟨a, b, u, v, rfl, ha, hb, rfl⟩ := writes_pair.mp wm
    obtain ⟨e, f, x, z, rfl, he, hf, rfl⟩ := writes_pair.mp wd
    rw [isCalendarDay_iff wy.width ha hb he hf, ← pinnedDate_iff wy.width]
    exact ⟨⟨year, wy, ce, one, fits⟩, pinned⟩

/-- The check of times takes times of day in the same way. -/
theorem isTime_iff (s : String) :
    isTime s = true ↔ ClockTime Text.digitValue? s.toList ∧ PinnedTime s.toList := by
  have short (h m sec : List Char) (valid : isMoment h m sec = true) : sec.length ≤ 2 := by
    rw [isMoment, Bool.and_eq_true] at valid
    obtain ⟨_, second, -⟩ := (Option.any_eq_true _ _).mp valid.2
    exact length_le_of_second? second
  rw [isTime, hasFields_iff s (matchesStart_iff (decides_fields ':' 2)) rfl (by decide) short]
  generalize s.toList = cs
  constructor
  · rintro ⟨h, hh, m, hm, sec, hs, rfl, valid⟩
    obtain ⟨a, b, u, v, rfl, ha, hb⟩ := exists_pair hh
    obtain ⟨c, d, r, t, rfl, hc, hd⟩ := exists_pair hm
    obtain ⟨e, f, x, z, rfl, he, hf⟩ := exists_pair hs
    rw [isMoment_iff ha hb hc hd he hf, ← pinnedTime_iff (b := b) (f := d) (h := f)] at valid
    obtain ⟨⟨hour, minute, second⟩, pinned⟩ := valid
    have hourMinute := HourMinute.intro (writes_pair.mpr ⟨a, b, u, v, rfl, ha, hb, rfl⟩)
      (writes_pair.mpr ⟨c, d, r, t, rfl, hc, hd, rfl⟩) hour minute
    have clock := ClockTime.intro hourMinute (writes_pair.mpr ⟨e, f, x, z, rfl, he, hf, rfl⟩) second
    exact ⟨clock, pinned⟩
  · rintro ⟨@⟨_, sec, _, @⟨h, m, _, _, wh, wm, hour, minute⟩, ws, second⟩, pinned⟩
    refine ⟨h, mem_digitWords_of_writes wh, m, mem_digitWords_of_writes wm, sec,
      mem_digitWords_of_writes ws, List.append_assoc .., ?_⟩
    obtain ⟨a, b, u, v, rfl, ha, hb, rfl⟩ := writes_pair.mp wh
    obtain ⟨c, d, r, t, rfl, hc, hd, rfl⟩ := writes_pair.mp wm
    obtain ⟨e, f, x, z, rfl, he, hf, rfl⟩ := writes_pair.mp ws
    rw [pinnedTime_iff] at pinned
    rw [isMoment_iff ha hb hc hd he hf]
    exact ⟨⟨hour, minute, second⟩, pinned⟩

end Conform.Format
