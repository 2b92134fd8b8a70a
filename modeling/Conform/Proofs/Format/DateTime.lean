import Conform.Proofs.Format.Parts

/-! Dates with times. The grammar is the one of RFC 3339 without leap seconds, under some reading of
digits: the check takes it under the reading of all scripts, where it should be `0` to `9` only. -/
namespace Conform.Format

/-- A letter for none, or a sign and hours and minutes. -/
inductive ZoneOffset (digit : Char → Option Nat) : List Char → Prop
  | utc {z : Char} (letter : z = 'Z' ∨ z = 'z') : ZoneOffset digit [z]
  | numeric {sign : Char} {hm : List Char} (signed : sign = '+' ∨ sign = '-')
      (offset : HourMinute digit hm) : ZoneOffset digit (sign :: hm)

/-- A date and a time of day with its zone, as RFC 3339 writes them. -/
inductive DateTime (digit : Char → Option Nat) : List Char → Prop
  | intro {date time fraction zone : List Char} {t : Char} (day : CalendarDate digit date)
      (separated : t = 'T' ∨ t = 't') (clock : ClockTime digit time)
      (part : Fraction digit fraction) (offset : ZoneOffset digit zone) :
      DateTime digit (date ++ t :: (time ++ (fraction ++ zone)))

/-- The check of the hours and the minutes of a zone. -/
def Zone.Below : Zone → Prop
  | letter _ => True
  | numeric _ hours minutes =>
    (∃ n, number? hours = some n ∧ n < 24) ∧ ∃ n, number? minutes = some n ∧ n < 60

/-- Every check is made of the parts of the text. -/
theorem isDateTime_iff_exists (s : String) : isDateTime s = true ↔ ∃ p : Parts, p.Of s ∧
    isDate (String.ofList p.date) = true ∧ isTime (String.ofList p.time) = true ∧
      p.zone.Below := by
  cases found : dateTimePattern.matchStart? s with
  | none =>
    rw [isDateTime, found]
    refine iff_of_false nofun ?_
    rintro ⟨p, of, -⟩
    have matched := of.isSome_matchStart?
    rw [found] at matched
    cases matched
  | some m =>
    obtain ⟨p, of, held⟩ := exists_parts_of_matchStart? found
    have passes : isDateTime s = true ↔ isDate (String.ofList p.date) = true ∧
        isTime (String.ofList p.time) = true ∧ p.zone.Below := by
      rw [isDateTime, found]
      simp only [held.date, held.time, held.hours, held.minutes, Bool.and_eq_true, and_assoc]
      cases p.zone with
      | letter => simp [Zone.hours?, Zone.Below]
      | numeric => simp [Zone.hours?, Zone.minutes?, Zone.Below, Option.any_eq_true]
    rw [passes]
    constructor
    · exact fun checks => ⟨p, of, checks⟩
    · rintro ⟨q, of', checks⟩
      rwa [of.unique of']

theorem CalendarDate.mem {cs : List Char} (h : CalendarDate Text.digitValue? cs) :
    cs ∈ fieldWords '-' 4 := by
  obtain @⟨y, m, d, _, _, _, wy, wm, wd, -, -, -⟩ := h
  exact mem_fieldWords.mpr ⟨y, mem_digitWords_of_writes wy, m, mem_digitWords_of_writes wm, d,
    mem_digitWords_of_writes wd, rfl⟩

theorem ClockTime.mem {cs : List Char} (h : ClockTime Text.digitValue? cs) :
    cs ∈ fieldWords ':' 2 := by
  obtain @⟨_, sec, _, @⟨h, m, _, _, wh, wm, -, -⟩, ws, -⟩ := h
  exact mem_fieldWords.mpr ⟨h, mem_digitWords_of_writes wh, m, mem_digitWords_of_writes wm, sec,
    mem_digitWords_of_writes ws, List.append_assoc ..⟩

theorem number?_below_iff {cs : List Char} (h : cs ∈ digitWords 2) (limit : Nat) :
    (∃ n, number? cs = some n ∧ n < limit) ↔ ∃ n, Writes Text.digitValue? 2 n cs ∧ n < limit := by
  simp only [number?_eq_some_iff, (mem_digitWords.mp h).1]

/-- The zones of the grammar are those that pass the check. -/
theorem zoneOffset_iff {cs : List Char} : ZoneOffset Text.digitValue? cs ↔
    ∃ zone : Zone, zone.Shaped ∧ zone.Below ∧ cs = zone.text := by
  constructor
  · rintro (@⟨z, letter⟩ | @⟨sign, _, signed, @⟨h, m, hour, minute, wh, wm, hour_lt, minute_lt⟩⟩)
    · exact ⟨.letter z, letter, trivial, rfl⟩
    · have hh := mem_digitWords_of_writes wh
      have hm := mem_digitWords_of_writes wm
      have below := (number?_below_iff hh 24).mpr ⟨hour, wh, hour_lt⟩
      have below' := (number?_below_iff hm 60).mpr ⟨minute, wm, minute_lt⟩
      exact ⟨.numeric sign h m, ⟨signed, hh, hm⟩, ⟨below, below'⟩, rfl⟩
  · rintro ⟨c | ⟨sign, h, m⟩, shaped, below, rfl⟩
    · exact .utc shaped
    · obtain ⟨signed, hh, hm⟩ := shaped
      obtain ⟨hour, wh, hour_lt⟩ := (number?_below_iff hh 24).mp below.1
      obtain ⟨minute, wm, minute_lt⟩ := (number?_below_iff hm 60).mp below.2
      exact .numeric signed (.intro wh wm hour_lt minute_lt)

theorem dateTime_iff {cs : List Char} : DateTime Text.digitValue? cs ↔ ∃ p : Parts, p.Shaped ∧
    cs = p.text ∧ CalendarDate Text.digitValue? p.date ∧ ClockTime Text.digitValue? p.time ∧
      p.zone.Below := by
  constructor
  · rintro @⟨date, time, fraction, _, t, day, separated, clock, part, offset⟩
    obtain ⟨zone, shaped, below, rfl⟩ := zoneOffset_iff.mp offset
    exact ⟨⟨date, t, time, fraction, zone⟩, ⟨day.mem, separated, clock.mem, part, shaped⟩, rfl, day,
      clock, below⟩
  · rintro ⟨p, shaped, rfl, day, clock, below⟩
    exact .intro day shaped.separator clock shaped.fraction
      (zoneOffset_iff.mpr ⟨p.zone, shaped.zone, below, rfl⟩)

theorem pinnedDate_append {cs rest : List Char} (width : cs.length = 10) :
    PinnedDate (cs ++ rest) ↔ PinnedDate cs := by
  have same (i : Nat) (small : i < 10) : (cs ++ rest)[i]? = cs[i]? :=
    List.getElem?_append_left (by omega)
  simp only [PinnedDate, AsciiAt, same, Nat.reduceLT]

theorem pinnedTime_append {cs rest : List Char} (width : cs.length = 8) :
    PinnedTime (cs ++ rest) ↔ PinnedTime cs := by
  have same (i : Nat) (small : i < 8) : (cs ++ rest)[i]? = cs[i]? :=
    List.getElem?_append_left (by omega)
  simp only [PinnedTime, AsciiAt, same, Nat.reduceLT]

theorem Parts.Shaped.pinned_iff {p : Parts} (shaped : p.Shaped) :
    PinnedDate p.text ∧ PinnedTime (p.text.drop 11) ↔ PinnedDate p.date ∧ PinnedTime p.time := by
  have width := length_of_mem_fieldWords shaped.date
  have behind : p.text.drop 11 = p.time ++ (p.fraction ++ p.zone.text) := by
    have cut : p.text = (p.date ++ [p.separator]) ++ (p.time ++ (p.fraction ++ p.zone.text)) := by
      simp [Parts.text]
    rw [cut]
    exact List.drop_left' (by simp [width])
  rw [behind, pinnedTime_append (length_of_mem_fieldWords shaped.time), Parts.text,
    pinnedDate_append width]

/-- The check takes date-times in digits of any script, a line break behind them or not. -/
theorem isDateTime_iff_of_scripts (s : String) : isDateTime s = true ↔
    ∃ cs, (s.toList = cs ∨ s.toList = cs ++ ['\n']) ∧ DateTime Text.digitValue? cs ∧
      PinnedDate cs ∧ PinnedTime (cs.drop 11) := by
  simp only [isDateTime_iff_exists, isDate_iff, isTime_iff, String.toList_ofList]
  constructor
  · rintro ⟨p, ⟨shaped, after, ends, whole⟩, ⟨day, pinned⟩, ⟨clock, pinned'⟩, below⟩
    refine ⟨p.text, ?_, dateTime_iff.mpr ⟨p, shaped, rfl, day, clock, below⟩,
      shaped.pinned_iff.mpr ⟨pinned, pinned'⟩⟩
    rcases ends with rfl | rfl
    · exact .inl (by rw [whole, List.append_nil])
    · exact .inr whole
  · rintro ⟨cs, whole, dateTime, pinned⟩
    obtain ⟨p, shaped, rfl, day, clock, below⟩ := dateTime_iff.mp dateTime
    obtain ⟨pinned, pinned'⟩ := shaped.pinned_iff.mp pinned
    refine ⟨p, ⟨shaped, ?_⟩, ⟨day, pinned⟩, ⟨clock, pinned'⟩, below⟩
    rcases whole with whole | whole
    · exact ⟨[], .inl rfl, by rw [whole, List.append_nil]⟩
    · exact ⟨['\n'], .inr rfl, whole⟩

section

variable {p q : Char → Option Nat} {cs : List Char}

/-- A reading that agrees on the digits of a text reads the same in it. -/
def AgreesOn (p q : Char → Option Nat) (cs : List Char) : Prop :=
  ∀ c ∈ cs, ∀ d, p c = some d → q c = some d

theorem agreesOn_append {as bs : List Char} :
    AgreesOn p q (as ++ bs) ↔ AgreesOn p q as ∧ AgreesOn p q bs := List.forall_mem_append

theorem agreesOn_cons {c : Char} : AgreesOn p q (c :: cs) → AgreesOn p q cs :=
  fun agrees => (List.forall_mem_cons.mp agrees).2

theorem Writes.mono {width n : Nat} (h : Writes p width n cs) (agrees : AgreesOn p q cs) :
    Writes q width n cs := by
  have same : cs.map q = cs.map p := List.map_congr_left fun c mem => by
    obtain ⟨d, digit⟩ := h.exists_digit mem
    rw [agrees c mem d digit, digit]
  exact ⟨h.width, same ▸ h.value⟩

theorem CalendarDate.mono (h : CalendarDate p cs) (agrees : AgreesOn p q cs) :
    CalendarDate q cs := by
  obtain ⟨wy, wm, wd, ce, one, fits⟩ := h
  obtain ⟨year, behind⟩ := agreesOn_append.mp agrees
  obtain ⟨month, day⟩ := agreesOn_append.mp (agreesOn_cons behind)
  exact .intro (wy.mono year) (wm.mono month) (wd.mono (agreesOn_cons day)) ce one fits

theorem HourMinute.mono (h : HourMinute p cs) (agrees : AgreesOn p q cs) : HourMinute q cs := by
  obtain ⟨wh, wm, hour_lt, minute_lt⟩ := h
  obtain ⟨hour, minute⟩ := agreesOn_append.mp agrees
  exact .intro (wh.mono hour) (wm.mono (agreesOn_cons minute)) hour_lt minute_lt

theorem ClockTime.mono (h : ClockTime p cs) (agrees : AgreesOn p q cs) : ClockTime q cs := by
  obtain ⟨whm, ws, second_lt⟩ := h
  obtain ⟨hourMinute, second⟩ := agreesOn_append.mp agrees
  exact .intro (whm.mono hourMinute) (ws.mono (agreesOn_cons second)) second_lt

theorem Fraction.mono (h : Fraction p cs) (agrees : AgreesOn p q cs) : Fraction q cs := by
  cases h with
  | none => exact .none
  | some filled digits =>
    refine .some filled fun d mem => ?_
    obtain ⟨v, value⟩ := Option.isSome_iff_exists.mp (digits d mem)
    rw [agreesOn_cons agrees d mem v value, Option.isSome_some]

theorem ZoneOffset.mono (h : ZoneOffset p cs) (agrees : AgreesOn p q cs) : ZoneOffset q cs := by
  cases h with
  | utc letter => exact .utc letter
  | numeric signed offset => exact .numeric signed (offset.mono (agreesOn_cons agrees))

theorem DateTime.mono (h : DateTime p cs) (agrees : AgreesOn p q cs) : DateTime q cs := by
  obtain ⟨day, separated, clock, part, offset⟩ := h
  obtain ⟨onDate, behind⟩ := agreesOn_append.mp agrees
  obtain ⟨onTime, behind⟩ := agreesOn_append.mp (agreesOn_cons behind)
  obtain ⟨onFraction, onZone⟩ := agreesOn_append.mp behind
  exact .intro (day.mono onDate) separated (clock.mono onTime) (part.mono onFraction)
    (offset.mono onZone)

end

section

variable {digit : Char → Option Nat} {cs : List Char}

/-- What stands between the digits of a date-time, or behind them. -/
def marks : List Char := ['-', ':', '+', '.', 'T', 't', 'Z', 'z']

/-- What a date-time may hold. -/
def Allowed (digit : Char → Option Nat) (c : Char) : Prop := (digit c).isSome = true ∨ c ∈ marks

theorem Writes.allowed {width n : Nat} (h : Writes digit width n cs) :
    ∀ c ∈ cs, Allowed digit c := by
  intro c mem
  obtain ⟨d, value⟩ := h.exists_digit mem
  exact .inl (by rw [value, Option.isSome_some])

theorem HourMinute.allowed (h : HourMinute digit cs) : ∀ c ∈ cs, Allowed digit c := by
  obtain ⟨wh, wm, -, -⟩ := h
  rw [List.forall_mem_append, List.forall_mem_cons]
  exact ⟨wh.allowed, .inr (by decide), wm.allowed⟩

theorem DateTime.allowed (h : DateTime digit cs) : ∀ c ∈ cs, Allowed digit c := by
  obtain ⟨⟨wy, wm, wd, -, -, -⟩, separated, ⟨whm, ws, -⟩, part, offset⟩ := h
  simp only [List.forall_mem_append, List.forall_mem_cons]
  refine ⟨⟨wy.allowed, .inr (by decide), wm.allowed, .inr (by decide), wd.allowed⟩, ?_,
    ⟨whm.allowed, .inr (by decide), ws.allowed⟩, ?_, ?_⟩
  · rcases separated with rfl | rfl <;> exact .inr (by decide)
  · cases part with
    | none => exact List.forall_mem_nil _
    | some _ digits =>
      exact List.forall_mem_cons.mpr ⟨.inr (by decide), fun d mem => .inl (digits d mem)⟩
  · cases offset with
    | utc letter =>
      rw [List.forall_mem_singleton]
      rcases letter with rfl | rfl <;> exact .inr (by decide)
    | numeric signed offset =>
      refine List.forall_mem_cons.mpr ⟨?_, offset.allowed⟩
      rcases signed with rfl | rfl <;> exact .inr (by decide)

end

/-- Two digits of which none is of another script. -/
theorem Writes.exists_ascii {n : Nat} {cs : List Char} (h : Writes Text.digitValue? 2 n cs)
    (plain : ∀ c ∈ cs, Text.isDigit c = true → c.isDigit = true) :
    ∃ a b, cs = [a, b] ∧ a.isDigit = true ∧ b.isDigit = true := by
  have digits := (mem_digitWords.mp (mem_digitWords_of_writes h)).2
  obtain ⟨a, b, -, -, rfl, -⟩ := writes_pair.mp h
  exact ⟨a, b, rfl, plain a (by simp) (digits a (by simp)), plain b (by simp) (digits b (by simp))⟩

/-- Where there are no digits of other scripts, those that have to be ASCII digits are. -/
theorem CalendarDate.pinned {cs : List Char} (h : CalendarDate Text.digitValue? cs)
    (plain : ∀ c ∈ cs, Text.isDigit c = true → c.isDigit = true) : PinnedDate cs := by
  obtain ⟨wy, wm, wd, -, -, -⟩ := h
  simp only [List.forall_mem_append, List.forall_mem_cons] at plain
  obtain ⟨-, -, plainMonth, -, plainDay⟩ := plain
  obtain ⟨a, b, rfl, ha, hb⟩ := wm.exists_ascii plainMonth
  obtain ⟨e, f, rfl, he, hf⟩ := wd.exists_ascii plainDay
  exact (pinnedDate_iff wy.width).mpr ⟨⟨ha, hb⟩, he, fun _ => hf⟩

theorem ClockTime.pinned {cs : List Char} (h : ClockTime Text.digitValue? cs)
    (plain : ∀ c ∈ cs, Text.isDigit c = true → c.isDigit = true) : PinnedTime cs := by
  obtain ⟨⟨wh, wm, -, -⟩, ws, -⟩ := h
  simp only [List.forall_mem_append, List.forall_mem_cons] at plain
  obtain ⟨⟨plainHour, -, plainMinute⟩, -, plainSecond⟩ := plain
  obtain ⟨a, b, rfl, ha, hb⟩ := wh.exists_ascii plainHour
  obtain ⟨c, d, rfl, hc, -⟩ := wm.exists_ascii plainMinute
  obtain ⟨e, f, rfl, he, -⟩ := ws.exists_ascii plainSecond
  exact pinnedTime_iff.mpr ⟨⟨ha, fun _ => hb⟩, hc, he⟩

theorem DateTime.pinned {cs : List Char} (h : DateTime Text.digitValue? cs)
    (plain : ∀ c ∈ cs, Text.isDigit c = true → c.isDigit = true) :
    PinnedDate cs ∧ PinnedTime (cs.drop 11) := by
  obtain ⟨p, shaped, rfl, day, clock, -⟩ := dateTime_iff.mp h
  rw [Parts.text, List.forall_mem_append, List.forall_mem_cons, List.forall_mem_append] at plain
  exact shaped.pinned_iff.mpr ⟨day.pinned plain.1, clock.pinned plain.2.2.1⟩

theorem digitValue?_of_asciiDigit? {c : Char} {d : Nat} (h : asciiDigit? c = some d) :
    Text.digitValue? c = some d := by
  rw [asciiDigit?] at h
  split at h
  · next ascii => rw [Text.digitValue?_of_ascii ascii, h]
  · cases h

theorem Allowed.plain {c : Char} (h : Allowed asciiDigit? c) (digit : Text.isDigit c = true) :
    c.isDigit = true := by
  rcases h with value | mark
  · by_contra other
    simp [asciiDigit?, other] at value
  · have none : (marks.all fun c => !Text.isDigit c) = true := by decide
    have other := List.all_eq_true.mp none c mark
    rw [digit] at other
    cases other

/-- The check takes date-times in digits of any script, where they need not be ASCII digits, and the
same with a line break at the end. So what it should take are the texts it takes that have neither
a digit of another script nor that line break. -/
theorem isDateTime_iff (s : String) :
    (isDateTime s = true ↔ ∃ cs, (s.toList = cs ∨ s.toList = cs ++ ['\n']) ∧
      DateTime Text.digitValue? cs ∧ PinnedDate cs ∧ PinnedTime (cs.drop 11)) ∧
    (DateTime asciiDigit? s.toList ↔ isDateTime s = true ∧
      (∀ c ∈ s.toList, Text.isDigit c = true → c.isDigit = true) ∧
      s.toList.getLast? ≠ some '\n') := by
  have accepts := isDateTime_iff_of_scripts s
  refine ⟨accepts, fun strict => ?_, ?_⟩
  · have plain : ∀ c ∈ s.toList, Text.isDigit c = true → c.isDigit = true :=
      fun c mem => (strict.allowed c mem).plain
    have dateTime := strict.mono fun c _ d => digitValue?_of_asciiDigit?
    refine ⟨accepts.mpr ⟨_, .inl rfl, dateTime, dateTime.pinned plain⟩, plain, fun last => ?_⟩
    rcases strict.allowed '\n' (List.mem_of_getLast? last) with digit | mark
    · cases digit
    · revert mark
      decide
  · rintro ⟨accepted, plain, last⟩
    obtain ⟨cs, whole | whole, dateTime, -⟩ := accepts.mp accepted
    · subst whole
      refine dateTime.mono fun c mem d digit => ?_
      have ascii := plain c mem (by rw [Text.isDigit, digit, Option.isSome_some])
      rw [asciiDigit?, if_pos ascii, ← Text.digitValue?_of_ascii ascii, digit]
    · simp [whole] at last

/-- A line break at the end is taken, and so are digits of another script. -/
theorem isDateTime_line_break :
    let broken := "2024-01-01T00:00:00Z\n"
    let arabic := "٢٠٢٤-01-01T00:00:00Z"
    (isDateTime broken = true ∧ ¬ DateTime asciiDigit? broken.toList) ∧
      isDateTime arabic = true ∧ ¬ DateTime asciiDigit? arabic.toList := by
  intro broken arabic
  have refused (c : Char) (other : (asciiDigit? c).isSome = false ∧ c ∉ marks) :
      ¬ Allowed asciiDigit? c :=
    fun h => h.elim (by simp [other.1]) other.2
  refine ⟨⟨by decide +kernel, fun h => ?_⟩, by decide +kernel, fun h => ?_⟩
  · exact refused '\n' (by decide) (h.allowed '\n' (by decide))
  · exact refused '٢' (by decide) (h.allowed '٢' (by decide))

end Conform.Format
