import Conform.Proofs.Json.Canonical

/-! The characters of canonical text. Words and numerals are made of letters, digits, signs and
points, everything else is escaped or a mark, and all of it is ASCII. -/
namespace Conform.Json

/-- A character that words and numerals are made of. -/
def isAtom (c : Char) : Bool := c.isAlphanum || c == '+' || c == '-' || c == '.'

/-- A text of such characters alone. -/
def Atoms (cs : List Char) : Prop := ∀ c ∈ cs, isAtom c = true

theorem isAtom_of_isDigit {c : Char} (h : c.isDigit = true) : isAtom c = true := by
  simp [isAtom, Char.isAlphanum, h]

theorem toNat_lt_of_isAtom {c : Char} (h : isAtom c = true) : c.toNat < 128 := by
  simp only [isAtom, Char.isAlphanum, Char.isDigit] at h
  delta Char.isAlpha Char.isUpper Char.isLower at h
  simp only [Bool.or_eq_true, Bool.and_eq_true, decide_eq_true_eq, beq_iff_eq,
    UInt32.le_iff_toNat_le, ge_iff_le] at h
  change (((((65 ≤ c.toNat ∧ c.toNat ≤ 90) ∨ (97 ≤ c.toNat ∧ c.toNat ≤ 122)) ∨
    (48 ≤ c.toNat ∧ c.toNat ≤ 57)) ∨ c = '+') ∨ c = '-') ∨ c = '.' at h
  rcases h with ((h | rfl) | rfl) | rfl
  · omega
  all_goals decide

namespace Atoms

variable {cs ds : List Char}

theorem nil : Atoms [] := nofun

theorem cons {c : Char} (first : isAtom c = true) (rest : Atoms cs) : Atoms (c :: cs) :=
  List.forall_mem_cons.mpr ⟨first, rest⟩

theorem append (left : Atoms cs) (right : Atoms ds) : Atoms (cs ++ ds) := fun c hc =>
  (List.mem_append.mp hc).elim (left c) (right c)

theorem sub (h : Atoms ds) (sub : ∀ c ∈ cs, c ∈ ds) : Atoms cs := fun c hc => h c (sub c hc)

theorem word {cs : List Char} (h : cs.all isAtom = true) : Atoms cs := fun _ =>
  List.all_eq_true.mp h _

theorem zeros (n : Nat) : Atoms (List.replicate n '0') := by
  intro c hc
  rw [List.eq_of_mem_replicate hc]
  rfl

theorem toDigits (n : Nat) : Atoms (Nat.toDigits 10 n) := fun _ hc =>
  isAtom_of_isDigit (Nat.isDigit_of_mem_toDigits (by decide) (by decide) hc)

theorem toString (n : Int) : Atoms (toString n).toList := by
  have digits (n : Nat) : Atoms n.repr.toList := by
    rw [Nat.repr_eq_ofList_toDigits, String.toList_ofList]
    exact toDigits n
  show Atoms n.repr.toList
  cases n with
  | ofNat n => exact digits n
  | negSucc n =>
    rw [Int.repr, String.toList_append]
    exact append (cons rfl nil) (digits n.succ)

theorem trimZeros (h : Atoms cs) : Atoms (Binary64.trimZeros cs) :=
  h.sub fun _ hc => List.mem_reverse.mp ((List.dropWhile_suffix _).mem (List.mem_reverse.mp hc))

theorem layout (h : Atoms cs) (point : Int) : Atoms (Binary64.layout cs point) := by
  have taken (n : Nat) : Atoms (cs.take n) := h.sub fun _ => List.mem_of_mem_take
  have dropped (n : Nat) : Atoms (cs.drop n) := h.sub fun _ => List.mem_of_mem_drop
  unfold Binary64.layout
  split
  · split
    · exact append (append (cons rfl (cons rfl nil)) (zeros _)) h
    · dsimp only
      split
      · exact append (append h (zeros _)) (cons rfl (cons rfl nil))
      · exact append (append (taken _) (cons rfl nil)) (dropped _)
  · dsimp only
    refine append (append (append (taken 1) ?_) (cons rfl (cons ?_ nil))) ?_
    · split
      · exact nil
      · exact cons rfl (dropped 1)
    · split <;> rfl
    · split
      · exact cons rfl (toDigits _)
      · exact toDigits _

theorem magnitudeText (x : Binary64) : Atoms x.magnitudeText := by
  unfold Binary64.magnitudeText
  split
  · exact cons rfl (cons rfl (cons rfl nil))
  · exact (toDigits _).trimZeros.layout _

theorem doubleText (x : Binary64) : Atoms (doubleText x).toList := by
  unfold Json.doubleText Binary64.text
  split
  · exact word (by decide)
  · split
    · split <;> exact word (by decide)
    · rw [String.toList_ofList]
      split
      · exact cons rfl (magnitudeText x)
      · exact magnitudeText x

end Atoms

theorem layout_ne_nil (cs : List Char) (point : Int) : Binary64.layout cs point ≠ [] := by
  unfold Binary64.layout
  split
  · split
    · simp
    · dsimp only
      split <;> simp
  · simp

theorem magnitudeText_ne_nil (x : Binary64) : x.magnitudeText ≠ [] := by
  unfold Binary64.magnitudeText
  split
  · simp
  · exact layout_ne_nil _ _

theorem doubleText_ne_empty (x : Binary64) : doubleText x ≠ "" := by
  unfold doubleText Binary64.text
  split
  · decide
  · split
    · split <;> decide
    · rw [← String.toList_inj.ne, String.toList_ofList]
      split
      · exact List.cons_ne_nil _ _
      · exact magnitudeText_ne_nil x

theorem toString_ne_empty (n : Int) : toString n ≠ "" := by
  have digits (n : Nat) : n.repr ≠ "" := by
    rw [Nat.repr_eq_ofList_toDigits, ← String.toList_inj.ne, String.toList_ofList]
    exact Nat.toDigits_ne_nil
  show n.repr ≠ ""
  cases n with
  | ofNat n => exact digits n
  | negSucc n =>
    rw [Int.repr, ← String.toList_inj.ne, String.toList_append]
    exact List.cons_ne_nil _ _

/-- A text of ASCII characters alone. -/
def Ascii (cs : List Char) : Prop := ∀ c ∈ cs, c.toNat < 128

namespace Ascii

variable {cs ds : List Char}

theorem nil : Ascii [] := nofun

theorem cons {c : Char} (first : c.toNat < 128) (rest : Ascii cs) : Ascii (c :: cs) :=
  List.forall_mem_cons.mpr ⟨first, rest⟩

theorem append (left : Ascii cs) (right : Ascii ds) : Ascii (cs ++ ds) := fun c hc =>
  (List.mem_append.mp hc).elim (left c) (right c)

theorem of_atoms (h : Atoms cs) : Ascii cs := fun c hc => toNat_lt_of_isAtom (h c hc)

theorem hex (width n : Nat) : Ascii (Text.hex width n) := by
  induction width generalizing n with
  | zero => exact nil
  | succ width ih =>
    refine append (ih _) (cons ?_ nil)
    have digits : ∀ i < 16, (Nat.digitChar i).toNat < 128 := by decide
    exact digits _ (Nat.mod_lt n (by decide))

theorem unicodeEscape (n : Nat) : Ascii (unicodeEscape n) := by
  have mark : Ascii ['\\', 'u'] := cons (by decide) (cons (by decide) nil)
  unfold Json.unicodeEscape
  split
  · exact append mark (hex _ _)
  · exact append (append (append mark (hex _ _)) mark) (hex _ _)

theorem escapeChar (c : Char) : Ascii (escapeChar c) := by
  have escape {d : Char} (h : d.toNat < 128) : Ascii ['\\', d] := cons (by decide) (cons h nil)
  unfold Json.escapeChar
  split_ifs with quote slash line carriage tab back feed plain
  case pos => exact escape (by decide)
  case pos => exact escape (by decide)
  case pos => exact escape (by decide)
  case pos => exact escape (by decide)
  case pos => exact escape (by decide)
  case pos => exact escape (by decide)
  case pos => exact escape (by decide)
  case pos =>
    simp only [Bool.and_eq_true, decide_eq_true_eq] at plain
    exact cons (by omega) nil
  case neg => exact unicodeEscape _

theorem quote (s : String) : Ascii (quote s).toList := by
  rw [Json.quote, String.toList_ofList]
  refine cons (by decide) (append (fun d hd => ?_) (cons (by decide) nil))
  obtain ⟨c, -, hd⟩ := List.mem_flatMap.mp hd
  exact escapeChar c d hd

theorem intercalate {s : String} {ts : List String} (mark : Ascii s.toList)
    (parts : ∀ t ∈ ts, Ascii t.toList) : Ascii (s.intercalate ts).toList := by
  rw [String.toList_intercalate]
  induction ts with
  | nil => exact nil
  | cons t ts ih =>
    rw [List.forall_mem_cons] at parts
    cases ts with
    | nil => simpa using parts.1
    | cons u ts =>
      rw [List.map_cons, List.map_cons, List.intercalate_cons_cons]
      exact append (append parts.1 mark) (ih parts.2)

end Ascii

theorem spells_ascii : Spells fun _ t => Ascii t.toList where
  null := .of_atoms (.word (by decide))
  bool b := .of_atoms (.word (by cases b <;> decide))
  integer n := .of_atoms (.toString n)
  double x := .of_atoms (.doubleText x)
  string s := .quote s
  array a xs ts items := by
    have parts : ∀ t ∈ ts, Ascii t.toList := fun t ht => by
      obtain ⟨x, -, ascii⟩ := exists_left_of_forall₂ items ht
      exact ascii
    simp only [String.toList_append]
    exact .append (.append (.cons (by decide) .nil) (.intercalate (.cons (by decide) .nil) parts))
      (.cons (by decide) .nil)
  object ms ts members := by
    have parts : ∀ t ∈ (sortByName ts).map fun t => quote t.1 ++ ":" ++ t.2, Ascii t.toList := by
      intro u hu
      obtain ⟨t, ht, rfl⟩ := List.mem_map.mp hu
      obtain ⟨m, -, related⟩ := exists_left_of_forall₂ members (mem_sortByName.mp ht)
      simp only [String.toList_append]
      exact .append (.append (.quote t.1) (.cons (by decide) .nil)) (Named.iff.mp related).2
    simp only [String.toList_append]
    exact .append (.append (.cons (by decide) .nil) (.intercalate (.cons (by decide) .nil) parts))
      (.cons (by decide) .nil)

/-- Canonical text is ASCII. -/
theorem ascii_of_canonical? {v : Value} {t : String} (h : canonical? v = some t) :
    Ascii t.toList :=
  spells_ascii.canonical h

end Conform.Json
