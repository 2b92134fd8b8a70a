import Mathlib.Computability.Language
import Conform.Pattern.Matcher
import Conform.Proofs.Pointwise

/-! What patterns match. A piece recognizes a language if it takes just the words of it, whatever
stands behind them and whatever is still to be done: sequences recognize products, branches sums,
and repetitions the words made of so many rounds, as long as no round is empty. The steps that a
search is given are enough for that. -/
namespace Conform.Pattern

variable {text : Array Char} {flags : Flags} {tasks rest : List Task} {steps : Nat}
  {left : List Char} {P : Prop} {L M : Language Char} {Q : List Char → Prop}

/-- What is left of the text where a match stands. -/
def Stands (text : Array Char) (left : List Char) (st : Progress) : Prop :=
  ∃ before, text.toList = before ++ left ∧ st.position = before.length

theorem Stands.length {st : Progress} (stands : Stands text left st) :
    st.position + left.length = text.size := by
  obtain ⟨before, whole, position⟩ := stands
  rw [position, ← Array.length_toList, whole, List.length_append]

theorem Stands.getElem? {st : Progress} (stands : Stands text left st) (i : Nat) :
    text[st.position + i]? = left[i]? := by
  obtain ⟨before, whole, position⟩ := stands
  rw [position, ← Array.getElem?_toList, whole, List.getElem?_append_right (Nat.le_add_right _ _),
    Nat.add_sub_cancel_left]

/-- With enough steps, tasks can be done where `left` is left just if `P` holds. -/
def Decides (text : Array Char) (tasks : List Task) (steps : Nat) (left : List Char) (P : Prop) :
    Prop :=
  ∀ fuel ≥ steps, ∀ st, Stands text left st → ((run text fuel tasks st).isSome = true ↔ P)

theorem Decides.mono {more : Nat} (enough : steps ≤ more) (h : Decides text tasks steps left P) :
    Decides text tasks more left P :=
  fun fuel many st stands => h fuel (enough.trans many) st stands

/-- A step that leaves the place where it is. -/
theorem Decides.of_step {tasks' : List Task} (h : Decides text tasks' steps left P)
    (step : ∀ fuel st, Stands text left st → ∃ st', Stands text left st' ∧
      run text (fuel + 1) tasks st = run text fuel tasks' st') :
    Decides text tasks (steps + 1) left P := by
  intro fuel enough st stands
  obtain ⟨fuel, rfl⟩ : ∃ n, fuel = n + 1 := ⟨fuel - 1, by omega⟩
  obtain ⟨st', stands', same⟩ := step fuel st stands
  rw [same]
  exact h fuel (by omega) st' stands'

theorem decides_nil : Decides text [] 1 left True := by
  intro fuel enough st _
  obtain ⟨fuel, rfl⟩ : ∃ n, fuel = n + 1 := ⟨fuel - 1, by omega⟩
  exact iff_true_intro rfl

theorem decides_lineStart {ps : List Piece}
    (h : Decides text (.pieces flags ps :: rest) steps text.toList P) :
    Decides text (.pieces flags (.anchor .lineStart :: ps) :: rest) (steps + 1) text.toList P := by
  refine h.of_step fun fuel st stands => ⟨st, stands, ?_⟩
  have first : st.position = 0 := by
    have length := stands.length
    rw [Array.length_toList] at length
    omega
  have holds : Anchor.lineStart.holds flags text st.position = true := by
    rw [first]
    rfl
  rw [run, if_pos holds]

theorem lineEnd_holds_iff {st : Progress} (single : flags.multiLine = false)
    (stands : Stands text left st) :
    Anchor.lineEnd.holds flags text st.position = true ↔ left = [] ∨ left = ['\n'] := by
  have length := stands.length
  have next : text[st.position]? = left[0]? := stands.getElem? 0
  cases left with
  | nil => simp [Anchor.holds, ← length]
  | cons c after =>
    have inside : st.position ≠ text.size := by
      rw [List.length_cons] at length
      omega
    have alone : st.position + 1 = text.size ↔ after = [] := by
      rw [← List.length_eq_zero_iff, ← length, List.length_cons]
      omega
    simp [Anchor.holds, next, single, inside, alone]

/-- The end of a line is the end of the text, or in front of the line break that ends the text. -/
theorem decides_lineEnd {ps : List Piece} (single : flags.multiLine = false)
    (h : Decides text (.pieces flags ps :: rest) steps left P) :
    Decides text (.pieces flags (.anchor .lineEnd :: ps) :: rest) (steps + 1) left
      ((left = [] ∨ left = ['\n']) ∧ P) := by
  intro fuel enough st stands
  obtain ⟨fuel, rfl⟩ : ∃ n, fuel = n + 1 := ⟨fuel - 1, by omega⟩
  have holds := lineEnd_holds_iff single stands
  have onward := h fuel (by omega) st stands
  rw [run]
  split
  · next here => simp [holds.mp here, onward]
  · next absent => simp [mt holds.mpr absent]

/-- What is left behind a pattern that ends with a line. -/
def AtEnd (after : List Char) : Prop := after = [] ∨ after = ['\n']

theorem decides_end (single : flags.multiLine = false) (after : List Char) :
    Decides text [.pieces flags [.anchor .lineEnd]] 3 after (AtEnd after) := by
  have done : Decides text [.pieces flags []] 2 after True :=
    decides_nil.of_step fun fuel st stands => ⟨st, stands, rfl⟩
  have ends := decides_lineEnd single done
  rwa [and_true] at ends

/-- What is left is a word and, behind it, something of which `Q` holds. -/
def Splits (L : Language Char) (Q : List Char → Prop) (left : List Char) : Prop :=
  ∃ word ∈ L, ∃ after, left = word ++ after ∧ Q after

theorem splits_zero : ¬ Splits 0 Q left := fun ⟨_, mem, _⟩ => mem

theorem splits_one : Splits 1 Q left ↔ Q left := by
  simp [Splits, Language.mem_one]

theorem splits_add : Splits (L + M) Q left ↔ Splits L Q left ∨ Splits M Q left := by
  simp only [Splits, Language.mem_add, or_and_right, exists_or]

theorem splits_mul : Splits (L * M) Q left ↔ Splits L (Splits M Q) left := by
  constructor
  · rintro ⟨_, ⟨a, ha, b, hb, rfl⟩, after, rfl, holds⟩
    exact ⟨a, ha, b ++ after, List.append_assoc .., b, hb, after, rfl, holds⟩
  · rintro ⟨a, ha, _, rfl, b, hb, after, rfl, holds⟩
    exact ⟨a ++ b, ⟨a, ha, b, hb, rfl⟩, after, (List.append_assoc ..).symm, holds⟩

/-- Tasks are decided wherever a word can lead. -/
def Follows (text : Array Char) (tasks : List Task) (steps : Nat) (L : Language Char)
    (Q : List Char → Prop) (left : List Char) : Prop :=
  ∀ word after, left = word ++ after → word ∈ L → Decides text tasks steps after (Q after)

theorem Follows.of_mul (h : Follows text tasks steps (L * M) Q left) {word after : List Char}
    (cut : left = word ++ after) (mem : word ∈ L) : Follows text tasks steps M Q after := by
  rintro next behind rfl mem'
  exact h (word ++ next) behind (by rw [cut, List.append_assoc]) ⟨word, mem, next, mem', rfl⟩

/-- A piece takes the words of a language and nothing else, with anything behind it. -/
def Piece.Recognizes (text : Array Char) (flags : Flags) (p : Piece) (L : Language Char) : Prop :=
  ∀ ⦃ps rest steps Q left⦄, Follows text (.pieces flags ps :: rest) steps L Q left →
    Decides text (.pieces flags (p :: ps) :: rest) (steps + p.steps text.size) left
      (Splits L Q left)

/-- So does a sequence of pieces. -/
def Recognizes (text : Array Char) (flags : Flags) (ps : List Piece) (L : Language Char) : Prop :=
  ∀ ⦃rest steps Q left⦄, Follows text rest steps L Q left →
    Decides text (.pieces flags ps :: rest) (steps + stepsOf text.size ps) left (Splits L Q left)

theorem recognizes_nil : Recognizes text flags [] 1 := by
  intro rest steps Q left follows
  have onward : Decides text rest steps left (Splits 1 Q left) := by
    rw [splits_one]
    exact follows [] left rfl rfl
  exact onward.of_step fun fuel st stands => ⟨st, stands, rfl⟩

theorem recognizes_cons {p : Piece} {ps : List Piece} (first : p.Recognizes text flags L)
    (others : Recognizes text flags ps M) : Recognizes text flags (p :: ps) (L * M) := by
  intro rest steps Q left follows
  rw [splits_mul, stepsOf, Nat.add_comm (p.steps text.size), ← Nat.add_assoc]
  exact first fun word after cut mem => others (follows.of_mul cut mem)

/-- The words of one character out of a class. -/
def oneOf (accepts : Char → Bool) : Language Char := {word | ∃ c, accepts c = true ∧ word = [c]}

theorem nil_not_mem_oneOf {accepts : Char → Bool} : [] ∉ oneOf accepts := by
  rintro ⟨c, -, empty⟩
  cases empty

theorem nil_not_mem_mul (filled : [] ∉ L) : [] ∉ L * M := by
  rintro ⟨a, ha, b, -, empty⟩
  obtain ⟨rfl, -⟩ := List.append_eq_nil_iff.mp empty
  exact filled ha

theorem splits_oneOf_nil {accepts : Char → Bool} : ¬ Splits (oneOf accepts) Q [] := by
  rintro ⟨_, ⟨c, -, rfl⟩, after, cut, -⟩
  cases cut

theorem splits_oneOf_cons {accepts : Char → Bool} {c : Char} :
    Splits (oneOf accepts) Q (c :: left) ↔ accepts c = true ∧ Q left := by
  constructor
  · rintro ⟨_, ⟨d, accepted, rfl⟩, after, cut, holds⟩
    cases cut
    exact ⟨accepted, holds⟩
  · rintro ⟨accepted, holds⟩
    exact ⟨[c], ⟨c, accepted, rfl⟩, left, rfl, holds⟩

theorem mem_oneOf_mul {c : Char} {L : Language Char} {word : List Char} :
    word ∈ oneOf (· == c) * L ↔ ∃ tail ∈ L, word = c :: tail := by
  constructor
  · rintro ⟨_, ⟨d, same, rfl⟩, tail, mem, rfl⟩
    exact ⟨tail, mem, by rw [beq_iff_eq.mp same]; rfl⟩
  · rintro ⟨tail, mem, rfl⟩
    exact ⟨[c], ⟨c, beq_self_eq_true c, rfl⟩, tail, mem, rfl⟩

theorem steps_single {p : Piece} (single : (p.takes? flags 'a').isSome = true) (n : Nat) :
    p.steps n = 2 := by
  cases p with
  | literal | notLiteral | any | set => rfl
  | _ => cases single

theorem run_single {p : Piece} (single : (p.takes? flags 'a').isSome = true) (ps : List Piece)
    (rest : List Task) (fuel : Nat) (st : Progress) :
    run text (fuel + 1) (.pieces flags (p :: ps) :: rest) st =
      match text[st.position]? with
      | some c =>
        if (p.takes? flags c).getD false then
          run text fuel (.pieces flags ps :: rest) { st with position := st.position + 1 }
        else none
      | none => none := by
  cases p with
  | literal | notLiteral | any | set => rfl
  | _ => cases single

theorem recognizes_oneOf {p : Piece} {accepts : Char → Bool}
    (takes : ∀ c, p.takes? flags c = some (accepts c)) :
    p.Recognizes text flags (oneOf accepts) := by
  have single : (p.takes? flags 'a').isSome = true := by rw [takes]; rfl
  intro ps rest steps Q left follows fuel enough st stands
  rw [steps_single single] at enough
  obtain ⟨fuel, rfl⟩ : ∃ n, fuel = n + 1 := ⟨fuel - 1, by omega⟩
  have next : text[st.position]? = left[0]? := stands.getElem? 0
  rw [run_single single, next]
  cases left with
  | nil => simp [splits_oneOf_nil]
  | cons c after =>
    obtain ⟨before, whole, position⟩ := stands
    have stands' : Stands text after { st with position := st.position + 1 } :=
      ⟨before ++ [c], by simp [whole], by simp [position]⟩
    rw [splits_oneOf_cons]
    cases accepted : accepts c with
    | false => simp [takes, accepted]
    | true =>
      have onward := follows [c] after rfl ⟨c, accepted, rfl⟩ fuel (by omega) _ stands'
      simp [takes, accepted, onward]

theorem sameLetter_toNat (cased : flags.ignoreCase = false) (d c : Char) :
    sameLetter flags d.toNat c.toNat = (c == d) := by
  have same : (d.toNat == c.toNat) = (c == d) := by
    rw [Bool.eq_iff_iff, beq_iff_eq, beq_iff_eq, Char.toNat_inj, eq_comm]
  simpa [sameLetter, fold, cased] using same

theorem recognizes_literal (cased : flags.ignoreCase = false) (d : Char) :
    (Piece.literal d.toNat).Recognizes text flags (oneOf (· == d)) :=
  recognizes_oneOf fun c => congrArg some (sameLetter_toNat cased d c)

/-- A branch tries its ways in order, and one that leads on is enough. -/
theorem recognizes_branch {alternatives : List (List Piece)} {Ls : List (Language Char)}
    (ways : List.Forall₂ (Recognizes text flags) alternatives Ls) :
    (Piece.branch alternatives).Recognizes text flags Ls.sum := by
  intro ps rest steps Q left follows fuel enough st stands
  rw [Piece.steps] at enough
  obtain ⟨fuel, rfl⟩ : ∃ n, fuel = n + 1 := ⟨fuel - 1, by omega⟩
  have tried : run text (fuel + 1) (.pieces flags (.branch alternatives :: ps) :: rest) st =
      alternatives.findSome? fun a =>
        run text fuel (.pieces flags a :: .pieces flags ps :: rest) st := rfl
  rw [tried, List.findSome?_isSome_iff]
  replace enough : steps + stepsOfAlternatives text.size alternatives ≤ fuel := by omega
  clear tried
  induction ways with
  | nil => simp [splits_zero]
  | @cons a L alternatives Ls way _ ih =>
    rw [stepsOfAlternatives] at enough
    have first := way (fun word after cut mem => follows word after cut (.inl mem)) fuel (by omega)
      st stands
    have others := ih (fun word after cut mem => follows word after cut (.inr mem)) (by omega)
    rw [List.sum_cons, splits_add]
    refine Iff.trans ?_ (or_congr first others)
    simp only [List.mem_cons, exists_eq_or_imp]

theorem within_nothing (flags : Flags) : flags.within {} {} = flags := by
  cases flags
  simp [Flags.within, Flags.union, Flags.without]

theorem recognizes_group {capture : Option Nat} {on off inner : Flags} {body : List Piece}
    (inside : flags.within on off = inner) (h : Recognizes text inner body L) :
    (Piece.group capture on off body).Recognizes text flags L := by
  subst inside
  intro ps rest steps Q left follows fuel enough st stands
  rw [Piece.steps] at enough
  obtain ⟨fuel, rfl⟩ : ∃ n, fuel = n + 1 := ⟨fuel - 1, by omega⟩
  cases capture with
  | none => exact h follows fuel (by omega) st stands
  | some n =>
    have closed : Follows text (.close n st.position :: .pieces flags ps :: rest) (steps + 1) L Q
        left := fun word after cut mem =>
      (follows word after cut mem).of_step fun fuel st' stands' =>
        ⟨{ st' with groups := (n, st.position, st'.position) :: st'.groups }, stands', rfl⟩
    exact h closed fuel (by omega) st stands

/-- The words of so many rounds that, with `count` rounds before them, there are neither too few nor
too many. -/
def rounds (L : Language Char) (least : Nat) (most : Option Nat) (count : Nat) : Language Char :=
  {word | ∃ ws : List (List Char), word = ws.flatten ∧ (∀ w ∈ ws, w ∈ L) ∧
    least ≤ count + ws.length ∧ ∀ m ∈ most, count + ws.length ≤ m}

section

variable {least count : Nat} {most : Option Nat}

/-- There is no round left, or there is a first one. -/
theorem mem_rounds_iff (within : ∀ m ∈ most, count ≤ m) {word : List Char} :
    word ∈ rounds L least most count ↔ (least ≤ count ∧ word = []) ∨
      ((∀ m ∈ most, count < m) ∧ word ∈ L * rounds L least most (count + 1)) := by
  constructor
  · rintro ⟨ws, rfl, each, enough, few⟩
    cases ws with
    | nil => exact .inl ⟨enough, rfl⟩
    | cons w ws =>
      rw [List.forall_mem_cons] at each
      rw [List.length_cons] at enough
      simp only [List.length_cons] at few
      refine .inr ⟨fun m hm => ?_, w, each.1, ws.flatten, ⟨ws, rfl, each.2, ?_, fun m hm => ?_⟩,
        rfl⟩
      · have := few m hm
        omega
      · omega
      · have := few m hm
        omega
  · rintro (⟨enough, rfl⟩ | ⟨-, w, mem, _, ⟨ws, rfl, each, enough, few⟩, rfl⟩)
    · exact ⟨[], rfl, nofun, enough, within⟩
    · refine ⟨w :: ws, rfl, List.forall_mem_cons.mpr ⟨mem, each⟩, ?_, fun m hm => ?_⟩
      · rw [List.length_cons]
        omega
      · have := few m hm
        rw [List.length_cons]
        omega

theorem splits_rounds (within : ∀ m ∈ most, count ≤ m) :
    Splits (rounds L least most count) Q left ↔ (least ≤ count ∧ Q left) ∨
      ((∀ m ∈ most, count < m) ∧
        Splits L (Splits (rounds L least most (count + 1)) Q) left) := by
  rw [← splits_mul]
  constructor
  · rintro ⟨word, mem, after, rfl, holds⟩
    rcases (mem_rounds_iff within).mp mem with ⟨enough, rfl⟩ | ⟨more, mem⟩
    · exact .inl ⟨enough, holds⟩
    · exact .inr ⟨more, word, mem, after, rfl, holds⟩
  · rintro (⟨enough, holds⟩ | ⟨more, word, mem, after, rfl, holds⟩)
    · exact ⟨[], (mem_rounds_iff within).mpr (.inl ⟨enough, rfl⟩), left, rfl, holds⟩
    · exact ⟨word, (mem_rounds_iff within).mpr (.inr ⟨more, mem⟩), after, rfl, holds⟩

theorem Loop.mayGoOn_iff {loop : Loop} :
    loop.mayGoOn count = true ↔ ∀ m ∈ loop.most, count < m := by
  unfold Loop.mayGoOn
  cases loop.most <;> simp

theorem run_again {loop : Loop} (greedy : loop.greed = .greedy) (last : Option Nat) (fuel : Nat)
    (st : Progress) : run text (fuel + 1) (.again loop count last :: rest) st =
      if count < loop.least then
        run text fuel (.pieces loop.flags loop.body :: .again loop (count + 1) last :: rest) st
      else if loop.mayGoOn count && last != some st.position then
        (run text fuel (.pieces loop.flags loop.body ::
          .again loop (count + 1) (some st.position) :: rest) st).or (run text fuel rest st)
      else run text fuel rest st := by
  rw [run, greedy]
  rfl

/-- A loop after `count` rounds, with `left` behind it: there may be more rounds, the latest one has
taken something, and what stands behind the loop is decided wherever the loop can end. -/
structure InLoop (text : Array Char) (loop : Loop) (L : Language Char) (rest : List Task)
    (steps : Nat) (Q : List Char → Prop) (count : Nat) (last : Option Nat) (left : List Char) :
    Prop where
  within : ∀ m ∈ loop.most, count ≤ m
  moved : ∀ p ∈ last, p + left.length < text.size
  follows : Follows text rest steps (rounds L loop.least loop.most count) Q left

variable {loop : Loop} {last start : Option Nat}

theorem InLoop.over (h : InLoop text loop L rest steps Q count last left)
    (enough : loop.least ≤ count) : Decides text rest steps left (Q left) :=
  h.follows [] left rfl ((mem_rounds_iff h.within).mpr (.inl ⟨enough, rfl⟩))

/-- A round that is not empty leads on, wherever up to here it is said to have begun. -/
theorem InLoop.next (h : InLoop text loop L rest steps Q count last left) (filled : [] ∉ L)
    (more : ∀ m ∈ loop.most, count < m) (here : ∀ p ∈ start, p + left.length ≤ text.size)
    {word after : List Char} (cut : left = word ++ after) (mem : word ∈ L) :
    after.length < left.length ∧ InLoop text loop L rest steps Q (count + 1) start after := by
  subst cut
  have shorter : after.length < (word ++ after).length := by
    rw [List.length_append]
    exact Nat.lt_add_of_pos_left (List.length_pos_of_ne_nil fun same => filled (same ▸ mem))
  refine ⟨shorter, more, fun p hp => (Nat.add_lt_add_left shorter p).trans_le (here p hp), ?_⟩
  rintro next behind rfl mem'
  refine h.follows (word ++ next) behind (List.append_assoc ..).symm ?_
  exact (mem_rounds_iff h.within).mpr (.inr ⟨more, word, mem, next, mem', rfl⟩)

/-- A loop is decided. The induction is on what is left, which every round makes shorter, so that no
round is the last for want of progress. -/
theorem decides_again (greedy : loop.greed = .greedy)
    (body : Recognizes text loop.flags loop.body L) (filled : [] ∉ L)
    (feasible : ∀ m ∈ loop.most, loop.least ≤ m)
    (inLoop : InLoop text loop L rest steps Q count last left) :
    Decides text (.again loop count last :: rest)
      (steps + 1 + (left.length + 1) * (stepsOf text.size loop.body + 1)) left
      (Splits (rounds L loop.least loop.most count) Q left) := by
  induction size : left.length using Nat.strong_induction_on generalizing left count last with
  | h n ih =>
  subst size
  intro fuel enough st stands
  rw [Nat.add_mul, Nat.one_mul] at enough
  obtain ⟨fuel, rfl⟩ : ∃ n, fuel = n + 1 := ⟨fuel - 1, by omega⟩
  have length := stands.length
  have another (more : ∀ m ∈ loop.most, count < m) {start : Option Nat}
      (here : ∀ p ∈ start, p + left.length ≤ text.size) :
      (run text fuel (.pieces loop.flags loop.body :: .again loop (count + 1) start :: rest)
        st).isSome = true ↔
        Splits L (Splits (rounds L loop.least loop.most (count + 1)) Q) left := by
    have later : Follows text (.again loop (count + 1) start :: rest)
        (steps + 1 + left.length * (stepsOf text.size loop.body + 1)) L
        (Splits (rounds L loop.least loop.most (count + 1)) Q) left := fun word after cut mem => by
      obtain ⟨shorter, inLoop'⟩ := inLoop.next filled more here cut mem
      exact (ih after.length shorter inLoop' rfl).mono
        (Nat.add_le_add_left (Nat.mul_le_mul_right _ shorter) _)
    exact body later fuel (by omega) st stands
  rw [splits_rounds inLoop.within, run_again greedy]
  split
  · next required =>
    have more : ∀ m ∈ loop.most, count < m := fun m hm => required.trans_le (feasible m hm)
    rw [another more fun p hp => (inLoop.moved p hp).le]
    simp only [Nat.not_le.mpr required, false_and, false_or]
    exact (and_iff_right more).symm
  · next enough' =>
    have least_le : loop.least ≤ count := Nat.not_lt.mp enough'
    have ends := inLoop.over least_le fuel (by omega) st stands
    have progressed : (last != some st.position) = true := by
      rw [bne_iff_ne]
      rintro rfl
      have := inLoop.moved st.position rfl
      omega
    rw [progressed, Bool.and_true]
    split
    · next more =>
      rw [Loop.mayGoOn_iff] at more
      have here : ∀ p ∈ some st.position, p + left.length ≤ text.size := fun p hp => by
        rw [← Option.mem_some.mp hp, length]
      rw [Option.isSome_or, Bool.or_eq_true, another more here, ends, or_comm]
      exact or_congr (and_iff_right least_le).symm (and_iff_right more).symm
    · next ended =>
      rw [Loop.mayGoOn_iff] at ended
      rw [ends]
      simp only [ended, false_and, or_false]
      exact (and_iff_right least_le).symm

/-- A repetition takes the words of as many rounds as it may, if there is no empty round. -/
theorem recognizes_repetition {body : List Piece} (inside : Recognizes text flags body L)
    (filled : [] ∉ L) (feasible : ∀ m ∈ most, least ≤ m) :
    (Piece.repetition .greedy least most body).Recognizes text flags (rounds L least most 0) := by
  intro ps rest steps Q left follows fuel enough st stands
  rw [Piece.steps] at enough
  obtain ⟨fuel, rfl⟩ : ∃ n, fuel = n + 1 := ⟨fuel - 1, by omega⟩
  have length := stands.length
  have loop : Decides text
      (.again ⟨flags, .greedy, least, most, body⟩ 0 none :: .pieces flags ps :: rest)
      (steps + 1 + (left.length + 1) * (stepsOf text.size body + 1)) left
      (Splits (rounds L least most 0) Q left) :=
    decides_again rfl inside filled feasible ⟨fun m _ => Nat.zero_le m, nofun, follows⟩
  refine loop fuel ?_ st stands
  have : (left.length + 1) * (stepsOf text.size body + 1) ≤
      (least + text.size + 3) * (stepsOf text.size body + 2) :=
    Nat.mul_le_mul (by omega) (by omega)
  omega

/-- Where every word of the language is made of something, all rounds are. -/
theorem mem_rounds_iff_exists {α : Type} {f : α → List Char} {R : α → Prop}
    (made : ∀ w, w ∈ L ↔ ∃ a, R a ∧ w = f a) {word : List Char} :
    word ∈ rounds L least most 0 ↔ ∃ as : List α, (∀ a ∈ as, R a) ∧ word = as.flatMap f ∧
      least ≤ as.length ∧ ∀ m ∈ most, as.length ≤ m := by
  simp only [rounds, Nat.zero_add]
  constructor
  · rintro ⟨ws, rfl, each, enough, few⟩
    obtain ⟨as, related⟩ := exists_forall₂ fun w hw => (made w).mp (each w hw)
    have same : ws.map id = as.map f := map_eq_map_of_forall₂ related fun w a h => h.2
    rw [List.map_id] at same
    subst same
    rw [List.length_map] at enough few
    refine ⟨as, fun a ha => ?_, List.flatMap_def.symm, enough, few⟩
    obtain ⟨w, -, holds, -⟩ := exists_left_of_forall₂ related ha
    exact holds
  · rintro ⟨as, each, rfl, enough, few⟩
    refine ⟨as.map f, List.flatMap_def, ?_, by rwa [List.length_map], by rwa [List.length_map]⟩
    exact List.forall_mem_map.mpr fun a ha => (made _).mpr ⟨a, each a ha, rfl⟩

/-- Rounds of one character each make the texts of so many characters out of a class. -/
theorem mem_rounds_oneOf {accepts : Char → Bool} {word : List Char} :
    word ∈ rounds (oneOf accepts) least most 0 ↔
      (∀ c ∈ word, accepts c = true) ∧ least ≤ word.length ∧ ∀ m ∈ most, word.length ≤ m := by
  have single : ∀ w, w ∈ oneOf accepts ↔ ∃ c, accepts c = true ∧ w = [c] := fun w => Iff.rfl
  rw [mem_rounds_iff_exists single]
  simp only [List.flatMap_singleton']
  constructor
  · rintro ⟨_, accepted, rfl, bounds⟩
    exact ⟨accepted, bounds⟩
  · exact fun ⟨accepted, bounds⟩ => ⟨word, accepted, rfl, bounds⟩

end

/-- What a pattern does at the beginning of a text is decided by the steps it is given. -/
theorem matchesStart_iff {p : Pattern} {s : String}
    (h : Decides s.toList.toArray [.pieces p.flags p.pieces]
      (stepsOf s.toList.toArray.size p.pieces + 2) s.toList P) :
    p.matchesStart s = true ↔ P :=
  h _ (Nat.le_refl _) ⟨0, []⟩ ⟨[], List.toList_toArray, rfl⟩

end Conform.Pattern
