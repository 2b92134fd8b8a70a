import Conform.Proofs.Json.Counts

/-! Rendered values, read back whole. A numeral is not read differently for the mark behind it, so a
value that is read back from its text alone is so wherever it stands. -/
namespace Conform.Json

/-- The sign of an exponent: whether it is negative, and its length. -/
def exponentSign : List Char → Bool × Nat × List Char
  | '-' :: cs => (true, 1, cs)
  | '+' :: cs => (false, 1, cs)
  | cs => (false, 0, cs)

/-- The fraction of a numeral after its whole part: the value of all digits, and how many of them
stand behind the point. -/
def readFraction (value : Nat) (cs : List Char) : Nat × Nat × List Char :=
  match cs with
  | '.' :: c :: r => if c.isDigit then readDigits value 0 (c :: r) else (value, 0, cs)
  | _ => (value, 0, cs)

/-- The whole part of a numeral. -/
def readWhole? (cs : List Char) : Option (Nat × Nat × List Char) :=
  match cs with
  | '0' :: r => some (0, 1, r)
  | c :: _ => if c.isDigit then some (readDigits 0 0 cs) else none
  | [] => none

theorem readExponent_cons {c : Char} {cs : List Char} (e : (c = 'e' || c = 'E') = true) :
    readExponent (c :: cs) =
      match readDigits 0 0 (exponentSign cs).2.2 with
      | (_, 0, _) => (0, 0, c :: cs)
      | (value, count, rest) => ((if (exponentSign cs).1 then -(value : Int) else value),
        1 + (exponentSign cs).2.1 + count, rest) := by
  exact if_pos e

theorem readNumeral_eq (negative : Bool) (cs : List Char) (p : Nat) :
    readNumeral negative cs p = (readWhole? cs).map fun (value, count, rest) =>
      let (digits, places, rest) := readFraction value rest
      let fractionLength := if places = 0 then 0 else places + 1
      let (exponent, exponentLength, rest) := readExponent rest
      let p := p + count + fractionLength + exponentLength
      if fractionLength = 0 && exponentLength = 0 then
        ⟨.ofInt (if negative then -(value : Int) else value), rest, p⟩
      else
        ⟨.number (.double (Binary64.ofDecimal negative digits (exponent - places))), rest, p⟩ := rfl

section

variable {rest : List Char}

/-- What is left of a text, with more behind it. -/
def followedBy {α β : Type} (rest : List Char) : α × β × List Char → α × β × List Char :=
  Prod.map id (Prod.map id (· ++ rest))

theorem readDigits_followed (marked : Marked rest) (value count : Nat) (cs : List Char) :
    readDigits value count (cs ++ rest) = followedBy rest (readDigits value count cs) := by
  induction cs generalizing value count with
  | nil =>
    have none : ∀ c ∈ ([] : List Char), c.isDigit = true := nofun
    exact readDigits_append none marked value count
  | cons c cs ih =>
    by_cases digit : c.isDigit = true
    · rw [List.cons_append, readDigits, readDigits, if_pos digit, if_pos digit, ih]
    · rw [List.cons_append, readDigits, readDigits, if_neg digit, if_neg digit]
      rfl

theorem exponentSign_followed (marked : Marked rest) (cs : List Char) :
    exponentSign (cs ++ rest) = followedBy rest (exponentSign cs) := by
  cases cs with
  | nil =>
    cases rest with
    | nil => rfl
    | cons m rest => rcases marked m rest rfl with rfl | rfl | rfl <;> rfl
  | cons c cs =>
    by_cases minus : c = '-'
    · subst minus
      rfl
    · by_cases plus : c = '+'
      · subst plus
        rfl
      · simp [exponentSign, minus, plus, followedBy]

theorem readExponent_followed (marked : Marked rest) (cs : List Char) :
    readExponent (cs ++ rest) = followedBy rest (readExponent cs) := by
  cases cs with
  | nil =>
    cases rest with
    | nil => rfl
    | cons m rest => rcases marked m rest rfl with rfl | rfl | rfl <;> rfl
  | cons c cs =>
    by_cases e : (c = 'e' || c = 'E') = true
    · rw [List.cons_append, readExponent_cons e, readExponent_cons e, exponentSign_followed marked]
      have digits := readDigits_followed marked 0 0 (exponentSign cs).2.2
      simp only [followedBy, Prod.map, id] at digits ⊢
      rw [digits]
      rcases readDigits 0 0 (exponentSign cs).2.2 with ⟨value, _ | count, left⟩ <;> rfl
    · have skipped (ds : List Char) : readExponent (c :: ds) = (0, 0, c :: ds) := if_neg e
      rw [List.cons_append, skipped, skipped]
      rfl

theorem readFraction_followed (marked : Marked rest) (value : Nat) (cs : List Char) :
    readFraction value (cs ++ rest) = followedBy rest (readFraction value cs) := by
  have pointless {c : Char} (other : c ≠ '.') (ds : List Char) :
      readFraction value (c :: ds) = (value, 0, c :: ds) := by
    simp [readFraction, other]
  have idle {d : Char} (other : ¬d.isDigit = true) (ds : List Char) :
      readFraction value ('.' :: d :: ds) = (value, 0, '.' :: d :: ds) := if_neg other
  cases cs with
  | nil =>
    cases rest with
    | nil => rfl
    | cons m rest => rcases marked m rest rfl with rfl | rfl | rfl <;> rfl
  | cons c cs =>
    by_cases point : c = '.'
    · subst point
      cases cs with
      | nil =>
        cases rest with
        | nil => rfl
        | cons m rest => exact idle (by simp [isDigit_of_mark (marked m rest rfl)]) rest
      | cons d ds =>
        by_cases digit : d.isDigit = true
        · have fraction (es : List Char) :
              readFraction value ('.' :: d :: es) = readDigits value 0 (d :: es) := if_pos digit
          rw [fraction, ← readDigits_followed marked]
          exact fraction (ds ++ rest)
        · rw [idle digit]
          exact idle digit (ds ++ rest)
    · rw [pointless point]
      exact pointless point (cs ++ rest)

theorem readWhole?_followed (marked : Marked rest) (cs : List Char) :
    readWhole? (cs ++ rest) = (readWhole? cs).map (followedBy rest) := by
  have digits {c : Char} (other : c ≠ '0') (ds : List Char) : readWhole? (c :: ds) =
      if c.isDigit then some (readDigits 0 0 (c :: ds)) else none := by
    simp [readWhole?]
  cases cs with
  | nil =>
    cases rest with
    | nil => rfl
    | cons m rest => rcases marked m rest rfl with rfl | rfl | rfl <;> rfl
  | cons c cs =>
    by_cases zero : c = '0'
    · subst zero
      rfl
    · rw [List.cons_append, digits zero, digits zero, ← List.cons_append,
        readDigits_followed marked]
      split <;> rfl

/-- What a step read but for the place, of a text with more behind it. -/
def Read.before (rest : List Char) (read : Read Value) : Value × List Char :=
  (read.result, read.rest ++ rest)

theorem readNumeral_followed (marked : Marked rest) (negative : Bool) (cs : List Char) (p q : Nat) :
    (readNumeral negative (cs ++ rest) q).map (Read.before []) =
      (readNumeral negative cs p).map (Read.before rest) := by
  rw [readNumeral_eq, readNumeral_eq, readWhole?_followed marked]
  rcases readWhole? cs with _ | ⟨value, count, left⟩
  · rfl
  · simp only [Option.map_some, followedBy, Prod.map, id, Option.some.injEq]
    have fraction := readFraction_followed marked value left
    simp only [followedBy, Prod.map, id] at fraction
    rw [fraction]
    rcases readFraction value left with ⟨digits, places, left⟩
    have exponent := readExponent_followed marked left
    simp only [followedBy, Prod.map, id] at exponent
    dsimp only
    rw [exponent]
    rcases readExponent left with ⟨exponent, length, left⟩
    dsimp only
    split_ifs <;> simp [Read.before]

theorem afterWord?_followed (marked : Marked rest) {w : List Char} (atoms : Atoms w)
    (cs : List Char) : afterWord? w (cs ++ rest) = (afterWord? w cs).map (· ++ rest) := by
  induction w generalizing cs with
  | nil => rfl
  | cons c w ih =>
    have first : isAtom c = true := atoms c (.head _)
    cases cs with
    | nil =>
      cases rest with
      | nil => rfl
      | cons m rest =>
        have other : c ≠ m := by
          rintro rfl
          rw [isAtom_of_mark (marked c rest rfl)] at first
          cases first
        exact if_neg other
    | cons d cs =>
      rw [List.cons_append, afterWord?, afterWord?, ih fun d hd => atoms d (.tail _ hd)]
      split <;> rfl

theorem readWord?_followed (marked : Marked rest) (cs : List Char) (p q : Nat) :
    (readWord? q (cs ++ rest) words).map (Read.before []) =
      (readWord? p cs words).map (Read.before rest) := by
  have spelled : ∀ w ∈ words, Atoms w.1 := by
    simp only [words, List.forall_mem_cons]
    exact ⟨.word rfl, .word rfl, .word rfl, .word rfl, .word rfl, .word rfl,
      List.forall_mem_nil _⟩
  generalize words = ws at spelled
  induction ws with
  | nil => rfl
  | cons w ws ih =>
    rw [List.forall_mem_cons] at spelled
    rw [readWord?, readWord?, afterWord?_followed marked spelled.1]
    cases afterWord? w.1 cs with
    | none => exact ih spelled.2
    | some left => simp [Read.before]

/-- Reads a numeral with its sign. -/
def readSigned? (cs : List Char) (p : Nat) : Option (Read Value) :=
  match cs with
  | '-' :: r => readNumeral true r (p + 1)
  | _ => readNumeral false cs p

theorem readSigned?_of_ne {c : Char} (other : c ≠ '-') (cs : List Char) (p : Nat) :
    readSigned? (c :: cs) p = readNumeral false (c :: cs) p := by
  simp [readSigned?, other]

theorem readSigned?_followed (marked : Marked rest) (c : Char) (cs : List Char) (p q : Nat) :
    (readSigned? (c :: cs ++ rest) q).map (Read.before []) =
      (readSigned? (c :: cs) p).map (Read.before rest) := by
  by_cases minus : c = '-'
  · subst minus
    exact readNumeral_followed marked true cs (p + 1) (q + 1)
  · rw [List.cons_append, readSigned?_of_ne minus, readSigned?_of_ne minus]
    exact readNumeral_followed marked false (c :: cs) p q

/-- Reads a word or a numeral. -/
def readAtom? (cs : List Char) (p : Nat) : Option (Read Value) :=
  (readWord? p cs words).or (readSigned? cs p)

theorem readAtom?_followed (marked : Marked rest) (c : Char) (cs : List Char) (p q : Nat) :
    (readAtom? (c :: cs ++ rest) q).map (Read.before []) =
      (readAtom? (c :: cs) p).map (Read.before rest) := by
  rw [readAtom?, readAtom?, Option.map_or, Option.map_or, readWord?_followed marked,
    readSigned?_followed marked]

theorem readValue_of_atom {c : Char} (atom : isAtom c = true) (cs : List Char) (p fuel : Nat) :
    readValue (fuel + 1) (c :: cs) p =
      (readAtom? (c :: cs) p).elim (.error ⟨.value, p⟩) .ok := by
  rw [readValue.eq_def, readAtom?]
  dsimp only
  split
  case h_4 =>
    cases readWord? p (c :: cs) words with
    | some read => rfl
    | none =>
      by_cases minus : c = '-'
      · subst minus
        cases numeral : readNumeral true cs (p + 1) <;> simp [readSigned?, numeral]
      · cases numeral : readNumeral false (c :: cs) p <;> simp [readSigned?, minus, numeral]
  all_goals
    next heq =>
    cases heq
    cases atom

theorem readAtom?_passes {cs : List Char} {p : Nat} {read : Read Value}
    (h : readAtom? cs p = some read) : Passes cs read.rest := by
  rcases Option.or_eq_some_iff.mp h with word | ⟨-, signed⟩
  · exact (readWord?_passes word).1
  · unfold readSigned? at signed
    split at signed
    · exact .cons rfl (readNumeral_passes signed).1
    · exact (readNumeral_passes signed).1

/-- A text that is read to a value, whatever mark stands behind it. -/
structure Reads (t : List Char) (v : Value) : Prop where
  opens : ∃ c cs, t = c :: cs ∧ isOpening c = true
  reads {fuel : Nat} {rest : List Char} (enough : t.length ≤ fuel) (marked : Marked rest)
    (p : Nat) : ∃ q, readValue fuel (t ++ rest) p = .ok ⟨v, rest, q⟩

theorem reads_of_readAtom? {t : List Char} {v : Value} {p q : Nat} (filled : t ≠ [])
    (atoms : Atoms t) (alone : readAtom? t p = some ⟨v, [], q⟩) : Reads t v := by
  obtain ⟨c, cs, rfl⟩ := List.exists_cons_of_ne_nil filled
  have atom : isAtom c = true := atoms c (.head _)
  refine ⟨⟨c, cs, rfl, by simp [isOpening, atom]⟩, fun {fuel rest} enough marked p' => ?_⟩
  cases fuel with
  | zero => cases enough
  | succ fuel =>
    have followed := readAtom?_followed marked c cs p p'
    rw [alone, Option.map_some, Option.map_eq_some_iff] at followed
    obtain ⟨⟨w, left, q'⟩, read, same⟩ := followed
    simp only [Read.before, List.append_nil, List.nil_append, Prod.mk.injEq] at same
    obtain ⟨rfl, rfl⟩ := same
    refine ⟨q', ?_⟩
    rw [List.cons_append] at read ⊢
    rw [readValue_of_atom atom, read]
    rfl

/-- What a word or numeral alone is parsed as, it is read as anywhere. -/
theorem reads_of_parseUnmarked {t : List Char} {v : Value} (filled : t ≠ []) (atoms : Atoms t)
    (alone : parseUnmarked t = .ok v) : Reads t v := by
  obtain ⟨c, cs, rfl⟩ := List.exists_cons_of_ne_nil filled
  have unblank (ds : List Char) (h : Atoms ds) (p : Nat) : skipSpace ds p = (ds, p) := by
    cases ds with
    | nil => rfl
    | cons d ds =>
      have opening : isOpening d = true := by simp [isOpening, h d (.head _)]
      exact skipSpace_of_not_isSpace (isSpace_of_isOpening opening) ds p
  unfold parseUnmarked at alone
  split at alone
  · cases alone
  · rw [parseChars, unblank _ atoms] at alone
    simp only [readValue_of_atom (atoms c (.head _)), bind, Except.bind] at alone
    cases read : readAtom? (c :: cs) 0 with
    | none => simp [read] at alone
    | some item =>
      obtain ⟨used, -, same⟩ := readAtom?_passes read
      have left : Atoms item.rest := atoms.sub fun d hd =>
        same ▸ List.mem_append_right used hd
      simp only [read, Option.elim_some, unblank _ left, List.isEmpty_iff] at alone
      split at alone
      · next ended =>
        cases alone
        exact reads_of_readAtom? filled atoms (q := item.position) (read.trans (by rw [← ended]))
      · cases alone

/-- With a sign in front a whole number is read as its opposite. -/
theorem readNumeral_negative {cs left : List Char} {p q : Nat} {n : Int}
    (h : readNumeral false cs p = some ⟨.ofInt n, left, q⟩) :
    readNumeral true cs p = some ⟨.ofInt (-n), left, q⟩ := by
  rw [readNumeral_eq, Option.map_eq_some_iff] at h
  obtain ⟨⟨value, count, after⟩, whole, same⟩ := h
  rw [readNumeral_eq, whole, Option.map_some, Option.some.injEq]
  dsimp only at same ⊢
  generalize (decide ((if _ = 0 then 0 else _) = 0) && _) = entire at same ⊢
  cases entire <;> cases same
  rfl

theorem exists_digit_toDigits (n : Nat) :
    ∃ c cs, Nat.toDigits 10 n = c :: cs ∧ c.isDigit = true := by
  obtain ⟨c, cs, same⟩ := List.exists_cons_of_ne_nil (Nat.toDigits_ne_nil (b := 10) (n := n))
  exact ⟨c, cs, same, isDigit_of_mem_toDigits (n := n) (same ▸ .head _)⟩

theorem ne_of_isDigit {c d : Char} (digit : c.isDigit = true) (mark : d.isDigit = false) :
    d ≠ c := by
  rintro rfl
  rw [digit] at mark
  cases mark

theorem reads_toDigits (n : Nat) : Reads (Nat.toDigits 10 n) (.ofInt n) := by
  obtain ⟨c, cs, same, digit⟩ := exists_digit_toDigits n
  have numeral := readNumeral_toDigits n marked_nil 0
  have wordless : readWord? 0 (c :: cs) words = none := by
    simp [readWord?, words, afterWord?, ne_of_isDigit digit (d := 'n') rfl,
      ne_of_isDigit digit (d := 't') rfl, ne_of_isDigit digit (d := 'f') rfl,
      ne_of_isDigit digit (d := 'N') rfl, ne_of_isDigit digit (d := 'I') rfl,
      ne_of_isDigit digit (d := '-') rfl]
  refine reads_of_readAtom? Nat.toDigits_ne_nil (.toDigits n) (p := 0) (.trans ?_ numeral)
  rw [List.append_nil, same, readAtom?, wordless, Option.none_or,
    readSigned?_of_ne (ne_of_isDigit digit rfl).symm]

theorem reads_negative (n : Nat) : Reads ('-' :: Nat.toDigits 10 n) (.ofInt (-n)) := by
  obtain ⟨c, cs, same, digit⟩ := exists_digit_toDigits n
  have numeral := readNumeral_negative (readNumeral_toDigits n marked_nil 1)
  have wordless : readWord? 0 ('-' :: c :: cs) words = none := by
    simp [readWord?, words, afterWord?, ne_of_isDigit digit (d := 'I') rfl]
  refine reads_of_readAtom? (List.cons_ne_nil _ _) (.cons rfl (.toDigits n)) (p := 0)
    (.trans ?_ numeral)
  rw [List.append_nil, same, readAtom?, wordless, Option.none_or]
  rfl

theorem reads_toString (n : Int) : Reads (toString n).toList (.ofInt n) := by
  cases n with
  | ofNat n =>
    have text : (toString (Int.ofNat n)).toList = Nat.toDigits 10 n := Nat.toList_repr
    exact text ▸ reads_toDigits n
  | negSucc n =>
    have text : (toString (Int.negSucc n)).toList = '-' :: Nat.toDigits 10 (n + 1) := by
      change (Int.repr (.negSucc n)).toList = _
      rw [Int.repr, String.toList_append, Nat.toList_repr]
      rfl
    exact text ▸ reads_negative (n + 1)

theorem reads_quote (s : String) : Reads (quote s).toList (.string s) := by
  rw [quote, String.toList_ofList]
  refine ⟨⟨'"', _, rfl, rfl⟩, fun {fuel rest} enough _ p => ?_⟩
  cases fuel with
  | zero => cases enough
  | succ fuel =>
    obtain ⟨q, string⟩ := readString_quote p (p + 1) [] s.toList rest
    refine ⟨q, ?_⟩
    rw [List.cons_append, List.append_assoc, List.singleton_append, readValue, string]
    simp [bind, Except.bind, pure, Except.pure]

variable {t : List Char} {v : Value} {c : Char} {fuel : Nat}

theorem skipSpace_opening (opening : isOpening c = true) (cs : List Char) (p : Nat) :
    skipSpace (c :: cs) p = (c :: cs, p) :=
  skipSpace_of_not_isSpace (isSpace_of_isOpening opening) cs p

/-- One blank stands behind a comma or a colon. -/
theorem skipSpace_blank (opening : isOpening c = true) (cs : List Char) (p : Nat) :
    skipSpace (' ' :: c :: cs) p = (c :: cs, p + 1) :=
  skipSpace_opening opening cs (p + 1)

/-- The last item of an array, with the closing bracket behind it. -/
theorem Reads.readItems_last (part : Reads t v) (enough : t.length ≤ fuel) (p : Nat)
    (acc : List Value) : ∃ q, readItems (fuel + 1) (t ++ ']' :: rest) p acc =
      .ok ⟨.list (acc.reverse ++ [v]), rest, q⟩ := by
  obtain ⟨q, read⟩ := part.reads enough (marked_cons (.inr (.inl rfl))) p
  have closing : skipSpace (']' :: rest) q = (']' :: rest, q) := skipSpace_of_not_isSpace rfl _ _
  rw [readItems, read]
  simp only [bind, Except.bind, closing]
  exact ⟨q + 1, by simp [pure, Except.pure]⟩

/-- An item with another one behind it. -/
theorem Reads.readItems_more (part : Reads t v) (enough : t.length ≤ fuel) (p : Nat)
    (acc : List Value) (opening : isOpening c = true) (cs : List Char) : ∃ q,
    readItems (fuel + 1) (t ++ ',' :: ' ' :: c :: cs) p acc =
      readItems fuel (c :: cs) q (v :: acc) := by
  obtain ⟨q, read⟩ := part.reads enough (marked_cons (.inl rfl)) p
  have comma : skipSpace (',' :: ' ' :: c :: cs) q = (',' :: ' ' :: c :: cs, q) :=
    skipSpace_of_not_isSpace rfl _ _
  rw [readItems, read]
  simp only [bind, Except.bind, comma, skipSpace_blank opening]
  exact ⟨_, rfl⟩

/-- Texts with a comma and a blank between them. -/
def commaed (ts : List (List Char)) : List Char := [',', ' '].intercalate ts

theorem commaed_singleton (t : List Char) : commaed [t] = t := List.intercalate_singleton

theorem commaed_cons_cons (t u : List Char) (ts : List (List Char)) :
    commaed (t :: u :: ts) = t ++ ',' :: ' ' :: commaed (u :: ts) := by
  rw [commaed, List.intercalate_cons_cons, List.append_assoc]
  rfl

theorem exists_commaed_cons {t : List Char} {P : Char → Prop} (opens : ∃ c cs, t = c :: cs ∧ P c)
    (ts : List (List Char)) (rest : List Char) :
    ∃ c cs, commaed (t :: ts) ++ rest = c :: cs ∧ P c := by
  obtain ⟨c, cs, rfl, opening⟩ := opens
  cases ts with
  | nil => exact ⟨c, cs ++ rest, by rw [commaed_singleton, List.cons_append], opening⟩
  | cons u ts =>
    exact ⟨c, cs ++ ',' :: ' ' :: (commaed (u :: ts) ++ rest), by simp [commaed_cons_cons], opening⟩

theorem exists_readItems_eq (rest : List Char) {ts : List (List Char)} {vs : List Value}
    (parts : List.Forall₂ Reads ts vs) (filled : ts ≠ []) (enough : (commaed ts).length < fuel)
    (p : Nat) (acc : List Value) : ∃ q, readItems fuel (commaed ts ++ ']' :: rest) p acc =
      .ok ⟨.list (acc.reverse ++ vs), rest, q⟩ := by
  induction parts generalizing fuel p acc with
  | nil => exact (filled rfl).elim
  | @cons t v ts vs first parts ih =>
    cases fuel with
    | zero => cases enough
    | succ fuel =>
      cases parts with
      | nil =>
        rw [commaed_singleton] at enough ⊢
        exact first.readItems_last (by omega) p acc
      | @cons u w ts vs second parts =>
        rw [commaed_cons_cons, List.length_append, List.length_cons, List.length_cons] at enough
        obtain ⟨c, cs, opened, opening⟩ := exists_commaed_cons second.opens ts (']' :: rest)
        have others : (commaed (u :: ts)).length < fuel := by omega
        have room : t.length ≤ fuel := by omega
        obtain ⟨q, step⟩ := first.readItems_more room p acc opening cs
        obtain ⟨q', read⟩ := ih (List.cons_ne_nil _ _) others q (v :: acc)
        refine ⟨q', ?_⟩
        rw [opened, List.reverse_cons, List.append_assoc, List.singleton_append] at read
        rw [commaed_cons_cons, List.append_assoc, List.cons_append, List.cons_append, opened, step,
          read]

theorem reads_array {ts : List (List Char)} {vs : List Value}
    (parts : List.Forall₂ Reads ts vs) : Reads ('[' :: (commaed ts ++ [']'])) (.list vs) := by
  refine ⟨⟨'[', _, rfl, rfl⟩, fun {fuel rest} enough _ p => ?_⟩
  rw [List.length_cons, List.length_append, List.length_singleton] at enough
  cases fuel with
  | zero => cases enough
  | succ fuel =>
    rw [List.cons_append, List.append_assoc, List.singleton_append, readValue]
    cases parts with
    | nil => exact ⟨_, rfl⟩
    | @cons t v ts vs first parts =>
      obtain ⟨c, cs, opened, opening⟩ := exists_commaed_cons first.opens ts (']' :: rest)
      have room : (commaed (t :: ts)).length < fuel := by omega
      obtain ⟨q, read⟩ :=
        exists_readItems_eq rest (.cons first parts) (List.cons_ne_nil _ _) room (p + 1) []
      have inside : c ≠ ']' := by
        rintro rfl
        cases opening
      refine ⟨q, ?_⟩
      rw [opened] at read ⊢
      rw [skipSpace_opening opening]
      simpa [inside] using read

/-- The text of a member, from its name and the text of its value. -/
def memberLine (m : String × List Char) : List Char := (quote m.1).toList ++ ':' :: ' ' :: m.2

theorem opens_memberLine (m : String × List Char) :
    ∃ c cs, memberLine m = c :: cs ∧ c = '"' :=
  ⟨'"', _, by rw [memberLine, quote, String.toList_ofList]; rfl, rfl⟩

theorem length_memberLine (name : String) (t : List Char) :
    (memberLine (name, t)).length = (quote name).toList.length + 2 + t.length := by
  have split : memberLine (name, t) = (quote name).toList ++ ':' :: ' ' :: t := rfl
  rw [split, List.length_append, List.length_cons, List.length_cons]
  omega

/-- A member, up to the mark behind it. -/
theorem Reads.readMembers_member (part : Reads t v) (enough : t.length ≤ fuel) {m : Char}
    (mark : m = ',' ∨ m = '\x7d') (name : String) (tail : List Char) (p : Nat)
    (acc : List (String × Value)) : ∃ q,
    readMembers (fuel + 1) (memberLine (name, t) ++ m :: tail) p acc =
      if m = ',' then
        readMembers fuel (skipSpace tail q).1 (skipSpace tail q).2 (Listing.put name v acc)
      else .ok ⟨.object .mutable (Listing.put name v acc), tail, q⟩ := by
  obtain ⟨c, cs, rfl, opening⟩ := part.opens
  have text : memberLine (name, c :: cs) ++ m :: tail =
      '"' :: (name.toList.flatMap escapeChar ++ '"' :: ':' :: ' ' :: c :: (cs ++ m :: tail)) := by
    rw [memberLine, quote, String.toList_ofList]
    simp
  obtain ⟨q, string⟩ :=
    readString_quote p (p + 1) [] name.toList (':' :: ' ' :: c :: (cs ++ m :: tail))
  have colon : skipSpace (':' :: ' ' :: c :: (cs ++ m :: tail)) q =
      (':' :: ' ' :: c :: (cs ++ m :: tail), q) := skipSpace_of_not_isSpace rfl _ _
  have marked : Marked (m :: tail) := marked_cons (mark.imp_right .inr)
  obtain ⟨q', read⟩ := part.reads enough marked (q + 2)
  have after : skipSpace (m :: tail) q' = (m :: tail, q') :=
    skipSpace_of_not_isSpace (isSpace_of_mark (mark.imp_right .inr)) _ _
  rw [List.cons_append] at read
  refine ⟨q' + 1, ?_⟩
  rw [text, readMembers]
  simp only [bind, Except.bind, string, colon, skipSpace_blank opening, read, after]
  rcases mark with rfl | rfl <;> simp [pure, Except.pure]

theorem exists_readMembers_eq (rest : List Char) (acc : List (String × Value))
    {ts : List (String × List Char)} {ms : List (String × Value)}
    (parts : List.Forall₂ (Named Reads) ts ms) (filled : ts ≠ [])
    (distinct : (Listing.names (acc ++ ms)).Nodup)
    (enough : (commaed (ts.map memberLine)).length < fuel) (p : Nat) : ∃ q,
    readMembers fuel (commaed (ts.map memberLine) ++ '\x7d' :: rest) p acc =
      .ok ⟨.object .mutable (acc ++ ms), rest, q⟩ := by
  induction parts generalizing fuel acc p with
  | nil => exact (filled rfl).elim
  | @cons t m ts ms first parts ih =>
    obtain @⟨name, t, v, part⟩ := first
    -- no member before has the name
    have fresh : Listing.has name acc = false := by
      rw [Listing.names_append, List.nodup_append] at distinct
      exact Listing.has_eq_false_iff.mpr fun before => distinct.2.2 name before name (.head _) rfl
    rw [List.append_cons] at distinct
    cases fuel with
    | zero => cases enough
    | succ fuel =>
      cases parts with
      | nil =>
        rw [List.map_singleton, commaed_singleton] at enough ⊢
        have room : t.length ≤ fuel := by
          rw [length_memberLine] at enough
          omega
        have closing : ('\x7d' : Char) = ',' ∨ ('\x7d' : Char) = '\x7d' := .inr rfl
        obtain ⟨q, read⟩ := part.readMembers_member room closing name rest p acc
        rw [if_neg (by decide), Listing.put_of_not_has v fresh] at read
        exact ⟨q, read⟩
      | @cons u n ts ms second parts =>
        rw [List.map_cons, List.map_cons, commaed_cons_cons, List.length_append,
          List.length_cons, List.length_cons, length_memberLine, ← List.map_cons] at enough
        have others : (commaed ((u :: ts).map memberLine)).length < fuel := by omega
        have room : t.length ≤ fuel := by omega
        obtain ⟨_, cs, opened, rfl⟩ :=
          exists_commaed_cons (opens_memberLine u) (ts.map memberLine) ('\x7d' :: rest)
        obtain ⟨q, step⟩ :=
          part.readMembers_member room (.inl rfl) name (' ' :: '"' :: cs) p acc
        rw [if_pos rfl, Listing.put_of_not_has v fresh, skipSpace_blank rfl] at step
        obtain ⟨q', read⟩ := ih _ (List.cons_ne_nil _ _) distinct others (q + 1)
        refine ⟨q', ?_⟩
        rw [List.append_assoc, List.singleton_append, List.map_cons, opened] at read
        rw [List.map_cons, List.map_cons, commaed_cons_cons, List.append_assoc, List.cons_append,
          List.cons_append, opened, step, read]

theorem reads_object {ts : List (String × List Char)} {ms : List (String × Value)}
    (parts : List.Forall₂ (Named Reads) ts ms) (distinct : (Listing.names ms).Nodup) :
    Reads ('\x7b' :: (commaed (ts.map memberLine) ++ ['\x7d'])) (.object .mutable ms) := by
  refine ⟨⟨'\x7b', _, rfl, rfl⟩, fun {fuel rest} enough _ p => ?_⟩
  rw [List.length_cons, List.length_append, List.length_singleton] at enough
  cases fuel with
  | zero => cases enough
  | succ fuel =>
    rw [List.cons_append, List.append_assoc, List.singleton_append, readValue]
    cases parts with
    | nil => exact ⟨_, rfl⟩
    | @cons t m ts ms first parts =>
      have room : (commaed ((t :: ts).map memberLine)).length < fuel := by omega
      obtain ⟨_, cs, opened, rfl⟩ :=
        exists_commaed_cons (opens_memberLine t) (ts.map memberLine) ('\x7d' :: rest)
      obtain ⟨q, read⟩ := exists_readMembers_eq rest [] (.cons first parts) (List.cons_ne_nil _ _)
        distinct room (p + 1)
      refine ⟨q, ?_⟩
      rw [List.map_cons] at read ⊢
      rw [opened] at read ⊢
      rw [skipSpace_opening rfl]
      exact read

/-- A whole text is parsed as it is read. -/
theorem Reads.parseUnmarked (h : Reads t v) : parseUnmarked t = .ok v := by
  have room : t.length ≤ 2 * t.length + 2 := by omega
  obtain ⟨q, read⟩ := h.reads room marked_nil 0
  obtain ⟨c, cs, rfl, opening⟩ := h.opens
  unfold Json.parseUnmarked
  split
  · next mark =>
    cases mark
    cases opening
  · rw [List.append_nil] at read
    rw [parseChars, skipSpace_opening opening]
    simp only [read, bind, Except.bind]
    rfl

end

/-- A value that rendered text holds in full: containers that may change, with distinct names, whole
numbers, and doubles that are read back from their own text. -/
inductive Durable : Value → Prop
  | null : Durable .null
  | bool (b : Bool) : Durable (.bool b)
  | integer (n : Int) : Durable (.ofInt n)
  | double (x : Binary64) (survives : parse (doubleText x) = .ok (.number (.double x))) :
    Durable (.number (.double x))
  | string (s : String) : Durable (.string s)
  | array {xs : List Value} (items : ∀ x ∈ xs, Durable x) : Durable (.list xs)
  | object {ms : List (String × Value)} (distinct : (Listing.names ms).Nodup)
    (members : ∀ m ∈ ms, Durable m.2) : Durable (.object .mutable ms)

theorem renderItems_eq_map (xs : List Value) : renderItems xs = xs.map render := by
  induction xs with
  | nil => rfl
  | cons x xs ih => rw [renderItems, ih, List.map_cons]

theorem renderMembers_eq_map (ms : List (String × Value)) :
    renderMembers ms = ms.map fun m => quote m.1 ++ ": " ++ render m.2 := by
  induction ms with
  | nil => rfl
  | cons m ms ih => rw [renderMembers, ih, List.map_cons]

theorem Durable.reads {v : Value} (h : Durable v) : Reads (render v).toList v := by
  induction h with
  | null => exact reads_of_readAtom? (by decide) (.word (by decide)) (p := 0) rfl
  | bool b => cases b <;> exact reads_of_readAtom? (by decide) (.word (by decide)) (p := 0) rfl
  | integer n => exact reads_toString n
  | double x survives =>
    have filled : (doubleText x).toList ≠ [] := by simpa using doubleText_ne_empty x
    exact reads_of_parseUnmarked filled (.doubleText x) survives
  | string s => exact reads_quote s
  | @array xs items ih =>
    have text : (render (.list xs)).toList =
        '[' :: (commaed (xs.map fun x => (render x).toList) ++ [']']) := by
      rw [Value.list, render, renderItems_eq_map, String.toList_append, String.toList_append,
        String.toList_intercalate, List.map_map]
      rfl
    rw [text]
    refine reads_array (List.forall₂_map_left_iff.mpr ?_)
    exact List.forall₂_same.mpr ih
  | @object ms distinct members ih =>
    have text : (render (.object .mutable ms)).toList = '\x7b' ::
        (commaed ((ms.map fun m => (m.1, (render m.2).toList)).map memberLine) ++ ['\x7d']) := by
      rw [render, renderMembers_eq_map, String.toList_append, String.toList_append,
        String.toList_intercalate, List.map_map, List.map_map]
      simp [commaed, Function.comp_def, memberLine]
    rw [text]
    refine reads_object (List.forall₂_map_left_iff.mpr ?_) distinct
    exact List.forall₂_same.mpr fun m hm => .intro m.1 (ih m hm)

theorem parse_render {v : Value} (h : Durable v) : parse (render v) = .ok v := h.reads.parseUnmarked

end Conform.Json
