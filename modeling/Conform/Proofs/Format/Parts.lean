import Conform.Proofs.Format.Calendar

/-! The parts of a date-time. The pattern parts a text into a date, a time, a fraction and a zone,
and there is one way to do it; so whatever way the match goes, the groups hold these parts. -/
namespace Conform.Format

open Pattern

/-- Nothing, or a point and at least one digit. -/
inductive Fraction (digit : Char → Option Nat) : List Char → Prop
  | none : Fraction digit []
  | some {ds : List Char} (filled : ds ≠ []) (digits : ∀ d ∈ ds, (digit d).isSome = true) :
      Fraction digit ('.' :: ds)

/-- How a zone is written. -/
inductive Zone
  | letter (c : Char)
  | numeric (sign : Char) (hours minutes : List Char)

def Zone.text : Zone → List Char
  | letter c => [c]
  | numeric sign hours minutes => sign :: (hours ++ ':' :: minutes)

def Zone.hours? : Zone → Option (List Char)
  | letter _ => none
  | numeric _ hours _ => some hours

def Zone.minutes? : Zone → Option (List Char)
  | letter _ => none
  | numeric _ _ minutes => some minutes

/-- What the pattern asks of a zone. -/
def Zone.Shaped : Zone → Prop
  | letter c => c = 'Z' ∨ c = 'z'
  | numeric sign hours minutes =>
    (sign = '+' ∨ sign = '-') ∧ hours ∈ digitWords 2 ∧ minutes ∈ digitWords 2

/-- What the groups hold behind a zone: the fourth holds all of it, the others its hours and its
minutes. -/
def Zone.groups (before : List Char) (zone : Zone) : List (Nat × Nat × Nat) :=
  (4, before.length, (before ++ zone.text).length) ::
    match zone with
    | letter _ => []
    | numeric sign hours minutes =>
      let colon := before ++ [sign] ++ hours ++ [':']
      [(6, colon.length, (colon ++ minutes).length),
        (5, (before ++ [sign]).length, (before ++ [sign] ++ hours).length)]

/-- What the groups of the pattern part a text into. -/
structure Parts where
  date : List Char
  separator : Char
  time : List Char
  fraction : List Char
  zone : Zone

def Parts.text (p : Parts) : List Char :=
  p.date ++ p.separator :: (p.time ++ (p.fraction ++ p.zone.text))

/-- What the pattern asks of the parts. -/
structure Parts.Shaped (p : Parts) : Prop where
  date : p.date ∈ fieldWords '-' 4
  separator : p.separator = 'T' ∨ p.separator = 't'
  time : p.time ∈ fieldWords ':' 2
  fraction : Fraction Text.digitValue? p.fraction
  zone : p.zone.Shaped

section

variable {text : Array Char} {flags : Flags} {rest : List Task} {ps : List Piece}
  {R : Progress → Prop} {before left : List Char} {groups : List (Nat × Nat × Nat)}

/-- The words of a point and digits. -/
def pointWords : Language Char := oneOf (· == '.') * rounds (oneOf Text.isDigit) 1 none 0

theorem mem_pointWords {word : List Char} : word ∈ pointWords ↔
    ∃ ds : List Char, ds ≠ [] ∧ (∀ d ∈ ds, Text.isDigit d = true) ∧ word = '.' :: ds := by
  rw [pointWords, mem_oneOf_mul]
  simp only [mem_rounds_oneOf, List.length_pos_iff, Nat.succ_le_iff]
  grind

theorem covers_point (cased : flags.ignoreCase = false) (scripts : flags.ascii = false) :
    Covers text flags
      [.literal '.'.toNat, .repetition .greedy 1 none [.set false [.category .digit false]]]
      pointWords := by
  have digits : (Piece.repetition .greedy 1 none [.set false [.category .digit false]]).Covers text
      flags (rounds (oneOf Text.isDigit) 1 none 0) := covers_rounds (takes?_digit scripts) nofun
  have words := covers_cons digits covers_nil
  rw [mul_one] at words
  exact covers_cons (covers_literal cased '.') words

variable (whole : text.toList = before ++ left) (cased : flags.ignoreCase = false)
  (scripts : flags.ascii = false)
include whole cased scripts

/-- Of a fraction only the third group is kept. -/
theorem leads_fraction (h : ∀ word, Fraction Text.digitValue? word → ∀ after, left = word ++ after →
      ∀ held, (∀ n ≠ 3, List.lookup n held = List.lookup n groups) →
        Leads text (.pieces flags ps :: rest) ⟨(before ++ word).length, held⟩ R) :
    Leads text (.pieces flags (.repetition .greedy 0 (some 1) fractionShape :: ps) :: rest)
      ⟨before.length, groups⟩ R := by
  refine leads_optional (fun again => ?_) ?_
  · refine leads_group_covers (within_nothing flags) (covers_point cased scripts) whole ?_
    intro word mem after cut
    obtain ⟨ds, filled, digits, rfl⟩ := mem_pointWords.mp mem
    have point := Fraction.some filled digits
    refine leads_done (leads_optional_over (h _ point after cut _ fun n other => ?_))
    rw [List.lookup_cons, beq_false_of_ne other]
  · have without := h [] .none left rfl groups fun _ _ => rfl
    rwa [List.append_nil] at without

/-- Of a zone its hours and its minutes are kept, if it has them. -/
theorem leads_zone (h : ∀ zone : Zone, zone.Shaped → ∀ after, left = zone.text ++ after →
      Leads text (.pieces flags ps :: rest)
        ⟨(before ++ zone.text).length, zone.groups before ++ groups⟩ R) :
    Leads text (.pieces flags (.group (some 4) {} {} [zoneShape] :: ps) :: rest)
      ⟨before.length, groups⟩ R := by
  have inside := within_nothing flags
  refine leads_group inside (leads_branch fun way member => ?_)
  rw [List.mem_pair] at member
  rcases member with rfl | rfl
  · refine leads_oneOf whole (takes?_either cased 'Z' 'z') fun c after cut accepted => ?_
    simp only [Bool.or_eq_true, beq_iff_eq] at accepted
    exact leads_done (leads_done (leads_close (h (.letter c) accepted after cut)))
  · refine leads_oneOf whole (takes?_either cased '+' '-') fun sign after cut accepted => ?_
    simp only [Bool.or_eq_true, beq_iff_eq] at accepted
    have whole₁ : text.toList = before ++ [sign] ++ after := by
      simp [whole, cut]
    refine leads_group_covers inside (covers_pair scripts) whole₁ fun hours hh after₁ cut₁ => ?_
    have whole₂ : text.toList = before ++ [sign] ++ hours ++ after₁ := by
      simp [whole₁, cut₁]
    refine leads_oneOf whole₂ (fun d => congrArg some (sameLetter_toNat cased ':' d)) ?_
    intro colon after₂ cut₂ same
    obtain rfl := beq_iff_eq.mp same
    have whole₃ : text.toList = before ++ [sign] ++ hours ++ [':'] ++ after₂ := by
      simp [whole₂, cut₂]
    refine leads_group_covers inside (covers_pair scripts) whole₃ fun minutes hm after₃ cut₃ => ?_
    have all : left = (Zone.numeric sign hours minutes).text ++ after₃ := by
      simp [cut, cut₁, cut₂, cut₃, Zone.text]
    have onward := h (.numeric sign hours minutes) ⟨accepted, hh, hm⟩ after₃ all
    refine leads_done (leads_done (leads_close ?_))
    simpa [Zone.groups, Zone.text, Nat.add_assoc] using onward

end

/-- A text is made of parts, but for a line break at its end. -/
structure Parts.Of (s : String) (p : Parts) : Prop where
  shaped : p.Shaped
  whole : ∃ after, AtEnd after ∧ s.toList = p.text ++ after

/-- What the groups hold are the parts. -/
structure Parts.Held (s : String) (p : Parts) (m : Progress) : Prop where
  date : m.held? s 1 = some (String.ofList p.date)
  time : m.held? s 2 = some (String.ofList p.time)
  hours : m.held? s 5 = p.zone.hours?.map String.ofList
  minutes : m.held? s 6 = p.zone.minutes?.map String.ofList

/-- The groups of a zone, with other groups behind them, hold its hours and its minutes. -/
theorem held_zone {s : String} {before after : List Char} {zone : Zone}
    {groups : List (Nat × Nat × Nat)} {position : Nat}
    (whole : s.toList = before ++ (zone.text ++ after))
    (free : ∀ n, n = 5 ∨ n = 6 → List.lookup n groups = none) :
    let m : Progress := ⟨position, zone.groups before ++ groups⟩
    m.held? s 5 = zone.hours?.map String.ofList ∧
      m.held? s 6 = zone.minutes?.map String.ofList := by
  intro m
  cases zone with
  | letter c =>
    have five : m.group? 5 = none := free 5 (.inl rfl)
    have six : m.group? 6 = none := free 6 (.inr rfl)
    simp [Progress.held?, five, six, Zone.hours?, Zone.minutes?]
  | numeric sign hours minutes =>
    have five : s.toList = before ++ [sign] ++ (hours ++ ':' :: (minutes ++ after)) := by
      simp [whole, Zone.text]
    have six : s.toList = before ++ [sign] ++ hours ++ [':'] ++ (minutes ++ after) := by
      simp [whole, Zone.text]
    exact ⟨held?_of_group five rfl, held?_of_group six rfl⟩

/-- The text of the pattern means its pieces. -/
theorem compile_dateTimePattern :
    Pattern.compile dateTimePattern.source = .ok dateTimePattern :=
  compile_eq_ok (by decide +kernel)

/-- Wherever the match ends, it has parted the text. -/
theorem exists_parts_of_matchStart? {s : String} {m : Progress}
    (found : dateTimePattern.matchStart? s = some m) : ∃ p : Parts, p.Of s ∧ p.Held s m := by
  let flags : Flags := { unicode := true }
  let text := s.toList.toArray
  have inside := within_nothing flags
  have leads : Leads text [.pieces flags dateTimePattern.pieces] ⟨([] : List Char).length, []⟩
      (fun m => ∃ p : Parts, p.Of s ∧ p.Held s m) := by
    refine leads_anchor fun _ => ?_
    have whole₀ : text.toList = [] ++ s.toList := rfl
    refine leads_group_covers inside (covers_fields rfl rfl '-' 4) whole₀ ?_
    intro date dated after₁ cut₁
    have whole₁ : text.toList = [] ++ date ++ after₁ := by simp [text, cut₁]
    refine leads_oneOf whole₁ (takes?_either rfl 'T' 't') fun t after₂ cut₂ separated => ?_
    simp only [Bool.or_eq_true, beq_iff_eq] at separated
    have whole₂ : text.toList = [] ++ date ++ [t] ++ after₂ := by simp [whole₁, cut₂]
    refine leads_group_covers inside (covers_fields rfl rfl ':' 2) whole₂ ?_
    intro time timed after₃ cut₃
    have whole₃ : text.toList = [] ++ date ++ [t] ++ time ++ after₃ := by simp [whole₂, cut₃]
    refine leads_fraction whole₃ rfl rfl fun fraction part after₄ cut₄ held others => ?_
    have whole₄ : text.toList = [] ++ date ++ [t] ++ time ++ fraction ++ after₄ := by
      simp [whole₃, cut₄]
    refine leads_zone whole₄ rfl rfl fun zone zoned after cut₅ => ?_
    have whole₅ : text.toList = [] ++ date ++ [t] ++ time ++ fraction ++ zone.text ++ after := by
      simp [whole₄, cut₅]
    refine leads_anchor fun ends => leads_done (leads_nil ?_)
    have atEnd : AtEnd after := (lineEnd_holds_iff rfl ⟨_, whole₅, rfl⟩).mp ends
    have all : s.toList = [] ++ date ++ [t] ++ time ++ fraction ++ (zone.text ++ after) := by
      rw [← List.append_assoc, ← whole₅]
    have free (n : Nat) (zonal : n = 5 ∨ n = 6) : List.lookup n held = none := by
      rcases zonal with rfl | rfl
      · exact others 5 (by decide)
      · exact others 6 (by decide)
    obtain ⟨hours, minutes⟩ := held_zone all free
    have one : s.toList = [] ++ (date ++ t :: (time ++ (fraction ++ (zone.text ++ after)))) := by
      simp [all]
    have two : s.toList = [] ++ date ++ [t] ++ (time ++ (fraction ++ (zone.text ++ after))) := by
      simp [all]
    refine ⟨⟨date, t, time, fraction, zone⟩, ⟨⟨dated, separated, timed, part, zoned⟩, after, atEnd,
      by simp [all, Parts.text]⟩, held?_of_group one ?_, held?_of_group two ?_, hours, minutes⟩
    · cases zone <;> exact others 1 (by decide)
    · cases zone <;> exact others 2 (by decide)
  exact leads _ _ found

/-- The words of a zone. -/
def zoneWords : Language Char :=
  (oneOf fun c => c == 'Z' || c == 'z') + ((oneOf fun c => c == '+' || c == '-') *
    (digitWords 2 * (oneOf (· == ':') * digitWords 2)))

theorem Zone.Shaped.mem {zone : Zone} (shaped : zone.Shaped) : zone.text ∈ zoneWords := by
  cases zone with
  | letter c => exact .inl ⟨c, by simpa [Shaped] using shaped, rfl⟩
  | numeric sign hours minutes =>
    obtain ⟨signed, hh, hm⟩ := shaped
    exact .inr ⟨[sign], ⟨sign, by simpa using signed, rfl⟩, _,
      ⟨hours, hh, _, mem_oneOf_mul.mpr ⟨minutes, hm, rfl⟩, rfl⟩, rfl⟩

theorem recognizes_zone {text : Array Char} {flags : Flags} (cased : flags.ignoreCase = false)
    (scripts : flags.ascii = false) :
    (Piece.group (some 4) {} {} [zoneShape]).Recognizes text flags zoneWords := by
  have inside := within_nothing flags
  have either (a b : Char) : (Piece.set false [.literal a.toNat, .literal b.toNat]).Recognizes text
      flags (oneOf fun c => c == a || c == b) := (covers_either cased a b).recognizes
  have colon : (Piece.literal ':'.toNat).Recognizes text flags (oneOf (· == ':')) :=
    (covers_literal cased ':').recognizes
  have pair (n : Nat) : (Piece.group (some n) {} {} _).Recognizes text flags _ :=
    recognizes_group inside (covers_pair scripts).recognizes
  have letter := recognizes_cons (either 'Z' 'z') recognizes_nil
  have numeric := recognizes_cons (either '+' '-') (recognizes_cons (pair 5)
    (recognizes_cons colon (recognizes_cons (pair 6) recognizes_nil)))
  have branch := recognizes_branch (.cons letter (.cons numeric .nil))
  have words := recognizes_cons branch recognizes_nil
  simp only [List.sum_cons, List.sum_nil, mul_one, add_zero] at words
  exact recognizes_group inside words

/-- The words of the whole pattern. -/
def dateTimeWords : Language Char :=
  fieldWords '-' 4 * ((oneOf fun c => c == 'T' || c == 't') * (fieldWords ':' 2 *
    (rounds pointWords 0 (some 1) 0 * zoneWords)))

theorem mem_rounds_pointWords {word : List Char} (part : Fraction Text.digitValue? word) :
    word ∈ rounds pointWords 0 (some 1) 0 := by
  cases part with
  | none => exact ⟨[], rfl, nofun, Nat.zero_le _, by simp⟩
  | @some ds filled digits =>
    have mem : '.' :: ds ∈ pointWords := mem_pointWords.mpr ⟨ds, filled, digits, rfl⟩
    exact ⟨['.' :: ds], by simp, by simpa using mem, Nat.zero_le _, by simp⟩

theorem Parts.Shaped.mem {p : Parts} (shaped : p.Shaped) : p.text ∈ dateTimeWords :=
  ⟨p.date, shaped.date, _, ⟨[p.separator], ⟨p.separator, by simpa using shaped.separator, rfl⟩, _,
    ⟨p.time, shaped.time, _, ⟨p.fraction, mem_rounds_pointWords shaped.fraction, _,
      shaped.zone.mem, rfl⟩, rfl⟩, rfl⟩, rfl⟩

theorem decides_dateTime (text : Array Char) :
    Decides text [.pieces dateTimePattern.flags dateTimePattern.pieces]
      (stepsOf text.size dateTimePattern.pieces + 2) text.toList
      (Splits dateTimeWords AtEnd text.toList) := by
  let flags : Flags := { unicode := true }
  have inside := within_nothing flags
  have date : (Piece.group (some 1) {} {} _).Recognizes text flags _ :=
    recognizes_group inside (covers_fields rfl rfl '-' 4).recognizes
  have separator : (Piece.set false _).Recognizes text flags _ :=
    (covers_either rfl 'T' 't').recognizes
  have time : (Piece.group (some 2) {} {} _).Recognizes text flags _ :=
    recognizes_group inside (covers_fields rfl rfl ':' 2).recognizes
  have point : (Piece.group (some 3) {} {} _).Recognizes text flags pointWords :=
    recognizes_group inside (covers_point rfl rfl).recognizes
  have fraction : (Piece.repetition .greedy 0 (some 1) _).Recognizes text flags _ :=
    recognizes_repetition (recognizes_cons point recognizes_nil)
      (nil_not_mem_mul (nil_not_mem_mul nil_not_mem_oneOf)) (by simp)
  have zone : (Piece.group (some 4) {} {} [zoneShape]).Recognizes text flags zoneWords :=
    recognizes_zone rfl rfl
  have whole := decides_lineStart (date fun _ a _ _ => separator fun _ b _ _ => time fun _ c _ _ =>
    fraction fun _ d _ _ => zone fun _ tail _ _ => decides_end rfl tail)
  have anchors (kind : Anchor) : (Piece.anchor kind).steps text.size = 2 := rfl
  simp only [← splits_mul, mul_one] at whole
  refine whole.mono ?_
  unfold dateTimePattern fractionShape
  simp only [stepsOf, anchors]
  omega

/-- A text of such parts is matched. -/
theorem Parts.Of.isSome_matchStart? {s : String} {p : Parts} (of : p.Of s) :
    (dateTimePattern.matchStart? s).isSome = true := by
  obtain ⟨shaped, after, ends, whole⟩ := of
  exact (matchesStart_iff (decides_dateTime s.toList.toArray)).mpr
    ⟨p.text, shaped.mem, after, whole, ends⟩

theorem length_of_mem_fieldWords {separator : Char} {width : Nat} {word : List Char}
    (mem : word ∈ fieldWords separator width) : word.length = width + 6 := by
  obtain ⟨a, ha, b, hb, c, hc, rfl⟩ := mem_fieldWords.mp mem
  simp [(mem_digitWords.mp ha).1, (mem_digitWords.mp hb).1, (mem_digitWords.mp hc).1]

theorem Zone.Shaped.text_eq {zone : Zone} (shaped : zone.Shaped) :
    ∃ c tail, zone.text = c :: tail ∧ Text.isDigit c = false ∧ c ≠ '.' := by
  cases zone with
  | letter c =>
    refine ⟨c, [], rfl, ?_⟩
    rcases shaped with rfl | rfl <;> decide
  | numeric sign hours minutes =>
    refine ⟨sign, _, rfl, ?_⟩
    rcases shaped.1 with rfl | rfl <;> decide

/-- A fraction ends where no digit follows. -/
theorem fraction_inj {f f' tail tail' : List Char} {c c' : Char}
    (part : Fraction Text.digitValue? f) (part' : Fraction Text.digitValue? f')
    (other : Text.isDigit c = false ∧ c ≠ '.') (other' : Text.isDigit c' = false ∧ c' ≠ '.')
    (same : f ++ c :: tail = f' ++ c' :: tail') : f = f' := by
  have digits {ds : List Char} (h : ∀ d ∈ ds, Text.isDigit d = true) {c : Char}
      (other : Text.isDigit c = false) (tail : List Char) :
      (ds ++ c :: tail).takeWhile Text.isDigit = ds := by
    rw [List.takeWhile_append_of_pos h, List.takeWhile_cons_of_neg (by simp [other]),
      List.append_nil]
  cases part with
  | none =>
    cases part' with
    | none => rfl
    | some => exact absurd (List.cons.inj same).1 other.2
  | some _ accepted =>
    cases part' with
    | none => exact absurd (List.cons.inj same).1.symm other'.2
    | some _ accepted' =>
      have spans := congrArg (List.takeWhile Text.isDigit) (List.cons.inj same).2
      exact congrArg _ ((digits accepted other.1 tail).symm.trans
        (spans.trans (digits accepted' other'.1 tail')))

theorem Zone.Shaped.eq {zone zone' : Zone} (shaped : zone.Shaped) (shaped' : zone'.Shaped)
    {after after' : List Char} (same : zone.text ++ after = zone'.text ++ after') :
    zone = zone' := by
  have apart {c sign : Char} (letter : c = 'Z' ∨ c = 'z') (signed : sign = '+' ∨ sign = '-') :
      c ≠ sign := by
    rcases letter with rfl | rfl <;> rcases signed with rfl | rfl <;> decide
  cases zone with
  | letter c =>
    cases zone' with
    | letter c' => rw [(List.cons.inj same).1]
    | numeric => exact absurd (List.cons.inj same).1 (apart shaped shaped'.1)
  | numeric sign hours minutes =>
    cases zone' with
    | letter => exact absurd (List.cons.inj same).1.symm (apart shaped' shaped.1)
    | numeric sign' hours' minutes' =>
      obtain ⟨-, hh, hm⟩ := shaped
      obtain ⟨-, hh', hm'⟩ := shaped'
      rw [mem_digitWords] at hh hm hh' hm'
      simp only [text, List.cons_append, List.append_assoc] at same
      obtain ⟨rfl, behind⟩ := List.cons.inj same
      obtain ⟨rfl, behind₁⟩ := List.append_inj behind (hh.1.trans hh'.1.symm)
      obtain ⟨rfl, -⟩ := List.append_inj (List.cons.inj behind₁).2 (hm.1.trans hm'.1.symm)
      rfl

theorem Parts.Of.unique {s : String} {p q : Parts} (hp : p.Of s) (hq : q.Of s) : p = q := by
  obtain ⟨shaped, after, -, whole⟩ := hp
  obtain ⟨shaped', after', -, whole'⟩ := hq
  obtain ⟨date, t, time, fraction, zone⟩ := p
  obtain ⟨date', t', time', fraction', zone'⟩ := q
  have same := whole.symm.trans whole'
  simp only [Parts.text, List.append_assoc, List.cons_append] at same
  have width := length_of_mem_fieldWords shaped.date
  have width' := length_of_mem_fieldWords shaped'.date
  have length := length_of_mem_fieldWords shaped.time
  have length' := length_of_mem_fieldWords shaped'.time
  obtain ⟨rfl, behind⟩ := List.append_inj same (width.trans width'.symm)
  obtain ⟨rfl, behind₁⟩ := List.cons.inj behind
  obtain ⟨rfl, behind₂⟩ := List.append_inj behind₁ (length.trans length'.symm)
  obtain ⟨c, tail, begins, other⟩ := shaped.zone.text_eq
  obtain ⟨c', tail', begins', other'⟩ := shaped'.zone.text_eq
  have cut := behind₂
  rw [begins, begins'] at cut
  obtain rfl := fraction_inj shaped.fraction shaped'.fraction other other' cut
  obtain rfl := shaped.zone.eq shaped'.zone (List.append_cancel_left behind₂)
  rfl

end Conform.Format
