import Conform.Proofs.Json.Quoting

/-! Canonical text, read back. Strings are read as they were written; of the words and numerals it is
enough that they are read to values that hold nothing, and that a mark ends them. So what is read
holds nothing that was not written, at the same places and under the same names. -/
namespace Conform.Json

/-- What is left of a text once some characters of words and numerals have been passed over. -/
def Passes (cs rest : List Char) : Prop := ∃ used, Atoms used ∧ cs = used ++ rest

namespace Passes

variable {cs ds rest : List Char} {c : Char}

theorem refl (cs : List Char) : Passes cs cs := ⟨[], .nil, rfl⟩

theorem cons (first : isAtom c = true) (h : Passes cs rest) : Passes (c :: cs) rest := by
  obtain ⟨used, atoms, rfl⟩ := h
  exact ⟨c :: used, .cons first atoms, rfl⟩

theorem trans (h : Passes cs ds) (h' : Passes ds rest) : Passes cs rest := by
  obtain ⟨used, atoms, rfl⟩ := h
  obtain ⟨used', atoms', rfl⟩ := h'
  exact ⟨used ++ used', atoms.append atoms', (List.append_assoc ..).symm⟩

theorem readDigits (value count : Nat) (cs : List Char) :
    Passes cs (readDigits value count cs).2.2 := by
  fun_induction Json.readDigits value count cs with
  | case1 value count c cs digit ih => exact .cons (isAtom_of_isDigit digit) ih
  | case2 => exact .refl _
  | case3 => exact .refl _

theorem readExponent (cs : List Char) : Passes cs (readExponent cs).2.2 := by
  unfold Json.readExponent
  split
  · split
    · next c cs e =>
      have mark : isAtom c = true := by
        rcases (Bool.or_eq_true _ _).mp e with e | e <;> rw [of_decide_eq_true e] <;> rfl
      split
      next negative signLength digits signed =>
      have sign : Passes cs digits := by
        split at signed
        · cases signed
          exact .cons rfl (.refl _)
        · cases signed
          exact .cons rfl (.refl _)
        · cases signed
          exact .refl _
      split
      · exact .refl _
      · next value count rest _ read =>
        have places := readDigits 0 0 digits
        rw [read] at places
        exact .cons mark (sign.trans places)
    · exact .refl _
  · exact .refl _

theorem of_afterWord? {w : List Char} (h : afterWord? w cs = some rest) (atoms : Atoms w) :
    Passes cs rest := by
  fun_induction afterWord? w cs with
  | case1 cs =>
    cases h
    exact .refl _
  | case2 ws c cs ih => exact .cons (atoms c (.head _)) (ih h fun c hc => atoms c (.tail _ hc))
  | case3 => cases h
  | case4 => cases h

end Passes

/-- A value that holds no other. -/
def Hollow (v : Value) : Prop := v.items? = none ∧ v.members? = none

theorem readNumeral_passes {negative : Bool} {cs : List Char} {p : Nat} {read : Read Value}
    (h : readNumeral negative cs p = some read) : Passes cs read.rest ∧ Hollow read.result := by
  obtain ⟨⟨value, count, rest⟩, whole, rfl⟩ := Option.map_eq_some_iff.mp h
  have first : Passes cs rest := by
    split at whole
    · cases whole
      exact .cons rfl (.refl _)
    · next c cs _ =>
      split at whole
      · have digits := Passes.readDigits 0 0 (c :: cs)
        rw [Option.some.inj whole] at digits
        exact digits
      · cases whole
    · cases whole
  -- whether it is whole or a double, as much has been read
  have either {b : Prop} [Decidable b] {x y : Read Value} (hx : Passes cs x.rest ∧ Hollow x.result)
      (hy : Passes cs y.rest ∧ Hollow y.result) :
      Passes cs (if b then x else y).rest ∧ Hollow (if b then x else y).result := by
    split
    · exact hx
    · exact hy
  have ends {rest' : List Char} (h : Passes cs rest') := h.trans (.readExponent rest')
  dsimp only
  split
  · split
    · next c r digit =>
      have all := ends (first.trans (.cons rfl (.readDigits value 0 (c :: r))))
      exact either ⟨all, rfl, rfl⟩ ⟨all, rfl, rfl⟩
    · exact either ⟨ends first, rfl, rfl⟩ ⟨ends first, rfl, rfl⟩
  · exact either ⟨ends first, rfl, rfl⟩ ⟨ends first, rfl, rfl⟩

theorem readWord?_passes {p : Nat} {cs : List Char} {read : Read Value}
    (h : readWord? p cs words = some read) : Passes cs read.rest ∧ Hollow read.result := by
  have each : ∀ w ∈ words, w.1.all isAtom = true ∧ Hollow w.2 := by
    simp only [words, List.forall_mem_cons]
    exact ⟨⟨rfl, rfl, rfl⟩, ⟨rfl, rfl, rfl⟩, ⟨rfl, rfl, rfl⟩, ⟨rfl, rfl, rfl⟩, ⟨rfl, rfl, rfl⟩,
      ⟨rfl, rfl, rfl⟩, nofun⟩
  generalize words = ws at h each
  induction ws with
  | nil => cases h
  | cons w ws ih =>
    obtain ⟨w, v⟩ := w
    rw [List.forall_mem_cons] at each
    rw [readWord?] at h
    split at h
    · next rest after =>
      cases h
      exact ⟨.of_afterWord? after (.word each.1.1), each.1.2⟩
    · exact ih h each.2

/-- The characters that canonical text starts with. -/
def isOpening (c : Char) : Bool := isAtom c || c == '"' || c == '[' || c == '\x7b'

theorem isSpace_of_isOpening {c : Char} (h : isOpening c = true) : isSpace c = false := by
  rw [← Bool.not_eq_true]
  intro space
  simp only [isSpace, Bool.or_eq_true, beq_iff_eq] at space
  rcases space with ((rfl | rfl) | rfl) | rfl <;> cases h

theorem skipSpace_of_not_isSpace {c : Char} (h : isSpace c = false) (cs : List Char) (p : Nat) :
    skipSpace (c :: cs) p = (c :: cs, p) := by
  rw [skipSpace, h]
  rfl

/-- What stands after a value in canonical text. -/
def Marked (rest : List Char) : Prop :=
  ∀ c cs, rest = c :: cs → c = ',' ∨ c = ']' ∨ c = '\x7d'

/-- A text that is read to values of a kind, up to characters that no mark follows. -/
structure ReadsAs (P : Value → Prop) (t : List Char) : Prop where
  opens : ∃ c cs, t = c :: cs ∧ isOpening c = true
  reads {fuel p : Nat} {rest : List Char} {read : Read Value} (marked : Marked rest)
    (h : readValue fuel (t ++ rest) p = .ok read) :
    P read.result ∧ ∃ left, Atoms left ∧ read.rest = left ++ rest

theorem isAtom_of_mark {c : Char} (h : c = ',' ∨ c = ']' ∨ c = '\x7d') : isAtom c = false := by
  rcases h with rfl | rfl | rfl <;> rfl

/-- Characters of words and numerals end at a mark. -/
theorem exists_of_passes {t rest rest' : List Char} (atoms : Atoms t) (marked : Marked rest)
    (h : Passes (t ++ rest) rest') : ∃ left, Atoms left ∧ rest' = left ++ rest := by
  obtain ⟨used, usedAtoms, same⟩ := h
  rcases List.append_eq_append_iff.mp same with ⟨more, rfl, tail⟩ | ⟨left, rfl, tail⟩
  · cases more with
    | nil => exact ⟨[], .nil, tail.symm⟩
    | cons d more =>
      have atom := usedAtoms d (List.mem_append_right t (.head _))
      rw [isAtom_of_mark (marked d _ tail)] at atom
      cases atom
  · exact ⟨left, atoms.sub fun _ => List.mem_append_right used, tail⟩

theorem readsAs_atoms {t : List Char} (filled : t ≠ []) (atoms : Atoms t) : ReadsAs Hollow t := by
  obtain ⟨c, cs, rfl⟩ := List.exists_cons_of_ne_nil filled
  have first : isAtom c = true := atoms c (.head _)
  refine ⟨⟨c, cs, rfl, by simp [isOpening, first]⟩, fun {fuel p rest read} marked h => ?_⟩
  have passes : Passes (c :: cs ++ rest) read.rest ∧ Hollow read.result := by
    cases fuel with
    | zero => cases h
    | succ fuel =>
      unfold readValue at h
      split at h
      case h_4 =>
        split at h
        · next word =>
          cases h
          exact readWord?_passes word
        · dsimp only at h
          split at h
          · next numeral =>
            cases h
            split at numeral
            · next r same =>
              obtain ⟨passes, hollow⟩ := readNumeral_passes numeral
              exact ⟨same ▸ passes.cons rfl, hollow⟩
            · exact readNumeral_passes numeral
          · cases h
      all_goals
        next same =>
        cases same
        cases first
  exact ⟨passes.2, exists_of_passes atoms marked passes.1⟩

theorem readsAs_quote (s : String) : ReadsAs Hollow (quote s).toList := by
  rw [quote, String.toList_ofList]
  refine ⟨⟨'"', _, rfl, rfl⟩, fun {fuel p rest read} _ h => ?_⟩
  cases fuel with
  | zero => cases h
  | succ fuel =>
    obtain ⟨q, string⟩ := readString_quote p (p + 1) [] s.toList rest
    rw [List.cons_append, List.append_assoc, List.singleton_append, readValue, string] at h
    cases h
    exact ⟨⟨rfl, rfl⟩, [], .nil, rfl⟩

section

variable {P : Value → Prop} {R : Value → Value → Prop} {t tail rest : List Char} {m : Char}
  {fuel p : Nat} {item read : Read Value}

theorem marked_nil : Marked [] := fun _ _ h => nomatch h

theorem marked_cons (mark : m = ',' ∨ m = ']' ∨ m = '\x7d') : Marked (m :: tail) := by
  rintro c cs same
  cases same
  exact mark

theorem isSpace_of_mark (mark : m = ',' ∨ m = ']' ∨ m = '\x7d') : isSpace m = false := by
  rcases mark with rfl | rfl | rfl <;> rfl

/-- After a value come the characters that it has not used, and then the mark. -/
theorem ReadsAs.skipSpace (part : ReadsAs P t) (mark : m = ',' ∨ m = ']' ∨ m = '\x7d')
    (h : readValue fuel (t ++ m :: tail) p = .ok item) :
    P item.result ∧ ∃ left, Atoms left ∧
      skipSpace item.rest item.position = (left ++ m :: tail, item.position) := by
  obtain ⟨hP, left, atoms, same⟩ := part.reads (marked_cons mark) h
  refine ⟨hP, left, atoms, ?_⟩
  rw [same]
  cases left with
  | nil => exact skipSpace_of_not_isSpace (isSpace_of_mark mark) _ _
  | cons d left =>
    have opening : isOpening d = true := by simp [isOpening, atoms d (.head _)]
    exact skipSpace_of_not_isSpace (isSpace_of_isOpening opening) _ _

theorem exists_of_readItems {acc : List Value} (part : ReadsAs P t)
    (mark : m = ',' ∨ m = ']')
    (h : readItems (fuel + 1) (t ++ m :: tail) p acc = .ok read) : ∃ v q, P v ∧
      (m = ']' ∧ read = ⟨.list (v :: acc).reverse, tail, q⟩ ∨
        m = ',' ∧ readItems fuel (Json.skipSpace tail q).1 (Json.skipSpace tail q).2 (v :: acc) = .ok read) := by
  unfold readItems at h
  cases first : readValue fuel (t ++ m :: tail) p with
  | error e =>
    rw [first] at h
    cases h
  | ok item =>
    obtain ⟨hP, left, atoms, after⟩ := part.skipSpace (mark.imp_right .inl) first
    rw [first] at h
    simp only [Except.bind, bind, after] at h
    refine ⟨item.result, item.position + 1, hP, ?_⟩
    -- no character that is left over is a mark
    cases left with
    | nil =>
      rcases mark with rfl | rfl
      · exact .inr ⟨rfl, h⟩
      · cases h
        exact .inl ⟨rfl, rfl⟩
    | cons d left =>
      have atom := atoms d (.head _)
      split at h
      · next same =>
        cases same
        cases atom
      · next same =>
        cases same
        cases atom
      · cases h

theorem exists_intercalate_cons (t : List Char) (ts : List (List Char)) :
    ∃ more, [','].intercalate (t :: ts) = t ++ more := by
  cases ts with
  | nil => exact ⟨[], by simp⟩
  | cons u ts => exact ⟨_, by rw [List.intercalate_cons_cons, List.append_assoc]⟩

/-- No blanks stand before a part. -/
theorem ReadsAs.skipSpace_intercalate (part : ReadsAs P t) (ts : List (List Char)) (q : Nat) :
    Json.skipSpace ([','].intercalate (t :: ts) ++ rest) q =
      ([','].intercalate (t :: ts) ++ rest, q) := by
  obtain ⟨c, cs, rfl, opening⟩ := part.opens
  obtain ⟨more, same⟩ := exists_intercalate_cons (c :: cs) ts
  rw [same]
  exact skipSpace_of_not_isSpace (isSpace_of_isOpening opening) _ _

theorem ReadsAs.intercalate_ne (part : ReadsAs P t) (ts : List (List Char)) {c : Char}
    (other : isOpening c = false) (cs : List Char) :
    [','].intercalate (t :: ts) ++ rest ≠ c :: cs := by
  obtain ⟨d, ds, rfl, opening⟩ := part.opens
  obtain ⟨more, same⟩ := exists_intercalate_cons (d :: ds) ts
  rw [same]
  rintro ⟨⟩
  rw [opening] at other
  cases other

theorem readItems_of_forall₂ {xs : List Value} {ts : List (List Char)} {acc : List Value}
    (parts : List.Forall₂ (fun x t => ReadsAs (R x) t) xs ts) (filled : ts ≠ [])
    (h : readItems fuel ([','].intercalate ts ++ ']' :: rest) p acc = .ok read) :
    ∃ ys q, read = ⟨.list (acc.reverse ++ ys), rest, q⟩ ∧ List.Forall₂ R xs ys := by
  induction parts generalizing fuel p acc with
  | nil => exact (filled rfl).elim
  | @cons x t xs ts first parts ih =>
    cases fuel with
    | zero => cases h
    | succ fuel =>
      cases parts with
      | nil =>
        rw [List.intercalate_singleton] at h
        obtain ⟨v, q, hv, ⟨-, rfl⟩ | ⟨mark, -⟩⟩ := exists_of_readItems first (.inr rfl) h
        · exact ⟨[v], q, by simp, .cons hv .nil⟩
        · cases mark
      | @cons _ u _ us second parts =>
        rw [List.intercalate_cons_cons, List.append_assoc, List.append_assoc,
          List.singleton_append] at h
        obtain ⟨v, q, hv, ⟨mark, -⟩ | ⟨-, h⟩⟩ := exists_of_readItems first (.inl rfl) h
        · cases mark
        · rw [second.skipSpace_intercalate] at h
          obtain ⟨ys, q', rfl, related⟩ := ih (List.cons_ne_nil u us) h
          exact ⟨v :: ys, q', by simp, .cons hv related⟩

theorem readsAs_array {xs : List Value} {ts : List String}
    (parts : List.Forall₂ (fun x t => ReadsAs (R x) t.toList) xs ts) :
    ReadsAs (fun v => ∃ ys, v = .list ys ∧ List.Forall₂ R xs ys)
      ("[" ++ ",".intercalate ts ++ "]").toList := by
  have text : ("[" ++ ",".intercalate ts ++ "]").toList =
      '[' :: ([','].intercalate (ts.map String.toList) ++ [']']) := by
    rw [String.toList_append, String.toList_append, String.toList_intercalate]
    rfl
  rw [text]
  refine ⟨⟨'[', _, rfl, rfl⟩, fun {fuel p rest read} _ h => ?_⟩
  rw [← List.forall₂_map_right_iff (R := fun x t => ReadsAs (R x) t)] at parts
  generalize ts.map String.toList = us at parts h
  cases fuel with
  | zero => cases h
  | succ fuel =>
    rw [List.cons_append, List.append_assoc, List.singleton_append, readValue] at h
    cases parts with
    | nil =>
      cases h
      exact ⟨⟨[], rfl, .nil⟩, [], .nil, rfl⟩
    | @cons x t xs ts first parts =>
      rw [first.skipSpace_intercalate] at h
      dsimp only at h
      split at h
      · next same => exact (first.intercalate_ne ts rfl _ same).elim
      · obtain ⟨ys, q, rfl, related⟩ :=
          readItems_of_forall₂ (.cons first parts) (List.cons_ne_nil t ts) h
        exact ⟨⟨ys, rfl, related⟩, [], .nil, rfl⟩

/-- The text of a member, from its name and the text of its value. -/
def memberText (m : String × List Char) : List Char := (quote m.1).toList ++ ':' :: m.2

/-- The text of an object, one member after the other. -/
theorem toList_membersText (ts : List (String × String)) :
    ("\x7b" ++ ",".intercalate (ts.map fun t => quote t.1 ++ ":" ++ t.2) ++ "\x7d").toList =
      '\x7b' :: ([','].intercalate ((ts.map fun t => (t.1, t.2.toList)).map memberText) ++
        ['\x7d']) := by
  simp only [String.toList_append, String.toList_intercalate, List.map_map]
  simp only [Function.comp_def, memberText, String.toList_append, List.append_assoc]
  rfl

theorem exists_memberText (m : String × List Char) :
    ∃ cs, memberText m = '"' :: cs ∧ ∀ (start p : Nat) (rest : List Char), ∃ q,
      readString start (cs ++ rest) p [] = .ok ⟨m.1, ':' :: (m.2 ++ rest), q⟩ := by
  refine ⟨_, by rw [memberText, quote, String.toList_ofList]; rfl, fun start p rest => ?_⟩
  obtain ⟨q, string⟩ := readString_quote start p [] m.1.toList (':' :: (m.2 ++ rest))
  exact ⟨q, by simpa using string⟩

theorem exists_intercalate_memberText (m : String × List Char) (ms : List (List Char))
    (rest : List Char) :
    ∃ more, [','].intercalate (memberText m :: ms) ++ rest = '"' :: more := by
  obtain ⟨cs, same, -⟩ := exists_memberText m
  obtain ⟨more, split⟩ := exists_intercalate_cons (memberText m) ms
  exact ⟨cs ++ more ++ rest, by rw [split, same]; rfl⟩

theorem skipSpace_memberText (m : String × List Char) (ms : List (List Char)) (rest : List Char)
    (q : Nat) :
    Json.skipSpace ([','].intercalate (memberText m :: ms) ++ rest) q =
      ([','].intercalate (memberText m :: ms) ++ rest, q) := by
  obtain ⟨more, same⟩ := exists_intercalate_memberText m ms rest
  rw [same]
  exact skipSpace_of_not_isSpace rfl _ _

theorem exists_of_readMembers {acc : List (String × Value)} {name : String} (part : ReadsAs P t)
    (mark : m = ',' ∨ m = '\x7d')
    (h : readMembers (fuel + 1) (memberText (name, t) ++ m :: tail) p acc = .ok read) :
    ∃ v q, P v ∧ (m = '\x7d' ∧ read = ⟨.object .mutable (Listing.put name v acc), tail, q⟩ ∨
      m = ',' ∧ readMembers fuel (Json.skipSpace tail q).1 (Json.skipSpace tail q).2
        (Listing.put name v acc) = .ok read) := by
  obtain ⟨cs, same, reads⟩ := exists_memberText (name, t)
  obtain ⟨q, string⟩ := reads p (p + 1) (m :: tail)
  rw [same, List.cons_append] at h
  unfold readMembers at h
  simp only [Except.bind, bind, string] at h
  rw [skipSpace_of_not_isSpace rfl] at h
  obtain ⟨c, ds, rfl, opening⟩ := part.opens
  simp only [List.cons_append] at h
  rw [skipSpace_of_not_isSpace (isSpace_of_isOpening opening), ← List.cons_append] at h
  cases first : readValue fuel (c :: ds ++ m :: tail) (q + 1) with
  | error e =>
    simp only [first] at h
    cases h
  | ok item =>
    obtain ⟨hP, left, atoms, after⟩ := part.skipSpace (mark.imp_right .inr) first
    simp only [first, after] at h
    refine ⟨item.result, item.position + 1, hP, ?_⟩
    -- no character that is left over is a mark
    cases left with
    | nil =>
      rcases mark with rfl | rfl
      · exact .inr ⟨rfl, h⟩
      · cases h
        exact .inl ⟨rfl, rfl⟩
    | cons d left =>
      have atom := atoms d (.head _)
      split at h
      · next same =>
        cases same
        cases atom
      · next same =>
        cases same
        cases atom
      · cases h

/-- Every member that is read has its name and its value from one that was written. -/
theorem mem_names_put {name other : String} (v : Value) {l : Listing Value} :
    other ∈ (Listing.put name v l).names ↔ other ∈ l.names ∨ other = name := by
  cases h : l.has name with
  | true =>
    have there : name ∈ l.names := by
      by_contra absent
      simp [Listing.has, Listing.get?_eq_none_iff.mpr absent] at h
    rw [Listing.names_put_of_has v h, iff_self_or]
    rintro rfl
    exact there
  | false => rw [Listing.names_put_of_not_has v h, List.mem_append, List.mem_singleton]

/-- Members are read back from what is written of them, and none of their names is lost. -/
theorem readMembers_of_forall {ms : List (String × Value)} {ts : List (String × List Char)}
    {acc : List (String × Value)}
    (parts : ∀ t ∈ ts, ∃ m ∈ ms, m.1 = t.1 ∧ ReadsAs (R m.2) t.2) (filled : ts ≠ [])
    (h : readMembers fuel ([','].intercalate (ts.map memberText) ++ '\x7d' :: rest) p acc =
      .ok read) :
    ∃ ns q, read = ⟨.object .mutable ns, rest, q⟩ ∧
      (∀ n ∈ ns, n ∈ acc ∨ ∃ m ∈ ms, Named R m n) ∧
      ∀ name, name ∈ Listing.names acc ∨ name ∈ Listing.names ts → name ∈ Listing.names ns := by
  induction ts generalizing fuel p acc with
  | nil => exact (filled rfl).elim
  | cons t ts ih =>
    obtain ⟨name, t⟩ := t
    rw [List.forall_mem_cons] at parts
    obtain ⟨⟨k, hk, same, part⟩, parts⟩ := parts
    have put {v : Value} (hv : R k.2 v) : ∀ n ∈ Listing.put name v acc,
        n ∈ acc ∨ ∃ m ∈ ms, Named R m n := by
      intro n hn
      rcases Listing.mem_put hn with rfl | before
      · exact .inr ⟨k, hk, Named.iff.mpr ⟨same, hv⟩⟩
      · exact .inl before
    cases fuel with
    | zero => cases h
    | succ fuel =>
      cases ts with
      | nil =>
        rw [List.map_singleton, List.intercalate_singleton] at h
        obtain ⟨v, q, hv, ⟨-, rfl⟩ | ⟨mark, -⟩⟩ := exists_of_readMembers part (.inr rfl) h
        · refine ⟨_, q, rfl, put hv, fun other named => (mem_names_put v).mpr ?_⟩
          simpa [Listing.names] using named
        · cases mark
      | cons u us =>
        rw [List.map_cons, List.map_cons, List.intercalate_cons_cons, List.append_assoc,
          List.append_assoc, List.singleton_append] at h
        obtain ⟨v, q, hv, ⟨mark, -⟩ | ⟨-, h⟩⟩ := exists_of_readMembers part (.inl rfl) h
        · cases mark
        · rw [skipSpace_memberText] at h
          obtain ⟨ns, q', rfl, related, kept⟩ := ih parts (List.cons_ne_nil u us) h
          refine ⟨ns, q', rfl, fun n hn => ?_, fun other named => kept other ?_⟩
          · rcases related n hn with before | origin
            · exact put hv n before
            · exact .inr origin
          · rw [mem_names_put v, or_assoc]
            exact named.imp_right List.mem_cons.mp

theorem readsAs_object {ms : List (String × Value)} {ts : List (String × String)}
    (parts : ∀ t ∈ ts, ∃ m ∈ ms, m.1 = t.1 ∧ ReadsAs (R m.2) t.2.toList) :
    ReadsAs (fun v => ∃ ns, v = .object .mutable ns ∧ (∀ n ∈ ns, ∃ m ∈ ms, Named R m n) ∧
        ∀ t ∈ ts, t.1 ∈ Listing.names ns)
      ("\x7b" ++ ",".intercalate (ts.map fun t => quote t.1 ++ ":" ++ t.2) ++ "\x7d").toList := by
  rw [toList_membersText]
  refine ⟨⟨'\x7b', _, rfl, rfl⟩, fun {fuel p rest read} _ h => ?_⟩
  replace parts : ∀ t ∈ ts.map fun t => (t.1, t.2.toList), ∃ m ∈ ms, m.1 = t.1 ∧
      ReadsAs (R m.2) t.2 := by
    intro u hu
    obtain ⟨t, ht, rfl⟩ := List.mem_map.mp hu
    exact parts t ht
  have names : (∀ ns : List (String × Value), (∀ t ∈ ts, t.1 ∈ Listing.names ns) ↔
      ∀ name ∈ Listing.names (ts.map fun t => (t.1, t.2.toList)), name ∈ Listing.names ns) := by
    intro ns
    simp [Listing.names]
  simp only [names]
  generalize (ts.map fun t => (t.1, t.2.toList)) = us at parts h
  cases fuel with
  | zero => cases h
  | succ fuel =>
    rw [List.cons_append, List.append_assoc, List.singleton_append, readValue] at h
    cases us with
    | nil =>
      cases h
      exact ⟨⟨[], rfl, List.forall_mem_nil _, List.forall_mem_nil _⟩, [], .nil, rfl⟩
    | cons u us =>
      rw [List.map_cons, skipSpace_memberText] at h
      dsimp only at h
      split at h
      · next closed =>
        obtain ⟨more, opened⟩ := exists_intercalate_memberText u (us.map memberText) ('\x7d' :: rest)
        cases opened.symm.trans closed
      · obtain ⟨ns, q, rfl, origins, kept⟩ :=
          readMembers_of_forall parts (List.cons_ne_nil u us) h
        exact ⟨⟨ns, rfl, fun n hn => (origins n hn).resolve_left List.not_mem_nil,
          fun name named => kept name (.inr named)⟩, [], .nil, rfl⟩

end

/-- What a value holds that is read in the place of another: whatever is in it, under whichever
names, stands in the other one too. Values that hold nothing may be any. -/
inductive Echoes : Value → Value → Prop
  | hollow {v w : Value} (h : Hollow w) : Echoes v w
  | array {a b : Access} {xs ys : List Value} (items : List.Forall₂ Echoes xs ys) :
    Echoes (.array a xs) (.array b ys)
  | object {a b : Access} {ms ks ns : List (String × Value)} (among : ∀ k ∈ ks, k ∈ ms)
    (members : List.Forall₂ (Named Echoes) ks ns) : Echoes (.object a ms) (.object b ns)

theorem ReadsAs.imp {P Q : Value → Prop} {t : List Char} (h : ReadsAs P t) (step : ∀ v, P v → Q v) :
    ReadsAs Q t where
  opens := h.opens
  reads marked read := (h.reads marked read).imp_left (step _)

theorem spells_readsAs : Spells fun v t => ReadsAs (Echoes v) t.toList where
  null := (readsAs_atoms (by decide) (.word (by decide))).imp fun _ => .hollow
  bool b := by
    refine (readsAs_atoms ?_ ?_).imp fun _ => .hollow
    · cases b <;> decide
    · exact .word (by cases b <;> decide)
  integer n := (readsAs_atoms (by simpa using toString_ne_empty n) (.toString n)).imp fun _ => .hollow
  double x := (readsAs_atoms (by simpa using doubleText_ne_empty x) (.doubleText x)).imp fun _ =>
    .hollow
  string s := (readsAs_quote s).imp fun _ => .hollow
  array a xs ts items := by
    refine (readsAs_array items).imp fun v => ?_
    rintro ⟨ys, rfl, related⟩
    exact .array related
  object ms ts members := by
    have parts : ∀ t ∈ sortByName ts, ∃ m ∈ ms, m.1 = t.1 ∧ ReadsAs (Echoes m.2) t.2.toList := by
      intro t ht
      obtain ⟨m, hm, related⟩ := exists_left_of_forall₂ members (mem_sortByName.mp ht)
      exact ⟨m, hm, Named.iff.mp related⟩
    refine (readsAs_object parts).imp fun v => ?_
    rintro ⟨ns, rfl, origins, -⟩
    obtain ⟨ks, hks⟩ := exists_forall₂ origins
    refine .object (fun k hk => ?_) (hks.flip.imp fun _ _ h => h.2)
    obtain ⟨n, -, mem, -⟩ := exists_left_of_forall₂ hks hk
    exact mem

/-- A whole text is read as its one value is. -/
theorem ReadsAs.of_parseUnmarked {P : Value → Prop} {t : List Char} {w : Value} (h : ReadsAs P t)
    (read : parseUnmarked t = .ok w) : P w := by
  obtain ⟨c, cs, same, opening⟩ := h.opens
  unfold parseUnmarked at read
  split at read
  · cases read
  · unfold parseChars at read
    rw [same, skipSpace_of_not_isSpace (isSpace_of_isOpening opening), ← same] at read
    simp only [bind, Except.bind] at read
    split at read
    · cases read
    · next item first =>
      rw [← List.append_nil t] at first
      split at read
      · cases read
        exact (h.reads marked_nil first).1
      · cases read

/-- What canonical text is read back to holds nothing but what the value held. -/
theorem echoes_of_parseUnmarked {v w : Value} {t : String} (h : canonical? v = some t)
    (read : parseUnmarked t.toList = .ok w) : Echoes v w :=
  (spells_readsAs.canonical h).of_parseUnmarked read

end Conform.Json
