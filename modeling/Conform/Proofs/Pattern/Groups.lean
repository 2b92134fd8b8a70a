import Conform.Proofs.Pattern.Language

/-! What groups hold. A match may end in several ways, and the first that is found counts; a fact
holds of it if it holds of every way, so pieces are followed one after the other to wherever they
can end. That there is a way is the other half, and pieces without groups in them have both. -/
namespace Conform.Pattern

variable {text : Array Char} {flags inner : Flags} {rest : List Task} {ps : List Piece}
  {st : Progress} {R : Progress → Prop} {before left : List Char} {groups : List (Nat × Nat × Nat)}
  {L M : Language Char}

/-- Wherever the tasks end, if they do, `R` holds. -/
def Leads (text : Array Char) (tasks : List Task) (st : Progress) (R : Progress → Prop) : Prop :=
  ∀ fuel stop, run text fuel tasks st = some stop → R stop

/-- A step that leads on to other tasks. -/
theorem Leads.of_step {tasks tasks' : List Task} {st' : Progress} (h : Leads text tasks' st' R)
    (step : ∀ fuel stop, run text (fuel + 1) tasks st = some stop →
      run text fuel tasks' st' = some stop) : Leads text tasks st R := by
  intro fuel stop ended
  cases fuel with
  | zero => cases ended
  | succ fuel => exact h fuel stop (step fuel stop ended)

theorem leads_nil (h : R st) : Leads text [] st R := by
  intro fuel stop ended
  cases fuel with
  | zero => cases ended
  | succ fuel =>
    cases ended
    exact h

theorem leads_done (h : Leads text rest st R) : Leads text (.pieces flags [] :: rest) st R :=
  h.of_step fun _ _ => id

theorem leads_close {n start : Nat}
    (h : Leads text rest { st with groups := (n, start, st.position) :: st.groups } R) :
    Leads text (.close n start :: rest) st R :=
  h.of_step fun _ _ => id

theorem leads_anchor {kind : Anchor}
    (h : kind.holds flags text st.position = true → Leads text (.pieces flags ps :: rest) st R) :
    Leads text (.pieces flags (.anchor kind :: ps) :: rest) st R := by
  intro fuel stop ended
  cases fuel with
  | zero => cases ended
  | succ fuel =>
    rw [run] at ended
    split at ended
    · next holds => exact h holds fuel stop ended
    · cases ended

/-- The piece of one character takes what stands first of what is left. -/
theorem leads_oneOf {p : Piece} {accepts : Char → Bool} (whole : text.toList = before ++ left)
    (takes : ∀ c, p.takes? flags c = some (accepts c))
    (h : ∀ c after, left = c :: after → accepts c = true →
      Leads text (.pieces flags ps :: rest) ⟨(before ++ [c]).length, groups⟩ R) :
    Leads text (.pieces flags (p :: ps) :: rest) ⟨before.length, groups⟩ R := by
  have single : (p.takes? flags 'a').isSome = true := by rw [takes]; rfl
  have stands : Stands text left ⟨before.length, groups⟩ := ⟨before, whole, rfl⟩
  have next : text[before.length]? = left[0]? := stands.getElem? 0
  intro fuel stop ended
  cases fuel with
  | zero => cases ended
  | succ fuel =>
    rw [run_single single, next] at ended
    cases left with
    | nil => cases ended
    | cons c after =>
      simp only [List.getElem?_cons_zero, takes, Option.getD_some] at ended
      split at ended
      · next accepted =>
        exact h c after rfl accepted fuel stop (by rwa [List.length_append])
      · cases ended

theorem leads_branch {alternatives : List (List Piece)}
    (h : ∀ a ∈ alternatives, Leads text (.pieces flags a :: .pieces flags ps :: rest) st R) :
    Leads text (.pieces flags (.branch alternatives :: ps) :: rest) st R := by
  intro fuel stop ended
  cases fuel with
  | zero => cases ended
  | succ fuel =>
    obtain ⟨a, mem, ended⟩ := List.exists_of_findSome?_eq_some ended
    exact h a mem fuel stop ended

theorem leads_group {n : Nat} {on off : Flags} {body : List Piece}
    (inside : flags.within on off = inner)
    (h : Leads text (.pieces inner body :: .close n st.position :: .pieces flags ps :: rest) st R) :
    Leads text (.pieces flags (.group (some n) on off body :: ps) :: rest) st R := by
  subst inside
  exact h.of_step fun _ _ => id

/-- A loop goes round once more, if it has to or may, or is over, if it has gone round enough. -/
theorem leads_again {loop : Loop} {count : Nat} {last : Option Nat} (greedy : loop.greed = .greedy)
    (more : count < loop.least ∨ loop.mayGoOn count = true → ∀ start,
      Leads text (.pieces loop.flags loop.body :: .again loop (count + 1) start :: rest) st R)
    (finish : loop.least ≤ count → Leads text rest st R) :
    Leads text (.again loop count last :: rest) st R := by
  intro fuel stop ended
  cases fuel with
  | zero => cases ended
  | succ fuel =>
    rw [run_again greedy] at ended
    split at ended
    · next required => exact more (.inl required) _ fuel stop ended
    · next enough =>
      have enough : loop.least ≤ count := Nat.not_lt.mp enough
      split at ended
      · next going =>
        have going := (Bool.and_eq_true _ _).mp going
        rcases Option.or_eq_some_iff.mp ended with ended | ⟨-, ended⟩
        · exact more (.inr going.1) _ fuel stop ended
        · exact finish enough fuel stop ended
      · exact finish enough fuel stop ended

section

variable {p : Piece} {accepts : Char → Bool} {least : Nat} {most : Option Nat}

/-- A loop over single characters, which has taken `word` so far. The induction is on what is left
behind that. -/
theorem leads_again_oneOf (whole : text.toList = before ++ left)
    (takes : ∀ c, p.takes? flags c = some (accepts c)) (feasible : ∀ m ∈ most, least ≤ m)
    (h : ∀ word ∈ rounds (oneOf accepts) least most 0, ∀ after, left = word ++ after →
      Leads text rest ⟨(before ++ word).length, groups⟩ R)
    {word after : List Char} (cut : left = word ++ after) (accepted : ∀ c ∈ word, accepts c = true)
    (few : ∀ m ∈ most, word.length ≤ m) (last : Option Nat) :
    Leads text (.again ⟨flags, .greedy, least, most, [p]⟩ word.length last :: rest)
      ⟨(before ++ word).length, groups⟩ R := by
  have whole' {word after : List Char} (cut : left = word ++ after) :
      text.toList = before ++ word ++ after := by
    rw [whole, cut, List.append_assoc]
  have finish {word after : List Char} (cut : left = word ++ after)
      (accepted : ∀ c ∈ word, accepts c = true) (few : ∀ m ∈ most, word.length ≤ m)
      (enough : least ≤ word.length) : Leads text rest ⟨(before ++ word).length, groups⟩ R :=
    h word (mem_rounds_oneOf.mpr ⟨accepted, enough, few⟩) after cut
  induction after generalizing word last with
  | nil =>
    refine leads_again rfl (fun _ start => ?_) (finish cut accepted few)
    exact leads_oneOf (whole' cut) takes nofun
  | cons c after ih =>
    refine leads_again rfl (fun going start => ?_) (finish cut accepted few)
    refine leads_oneOf (whole' cut) takes ?_
    rintro _ _ ⟨⟩ accepts_c
    have longer : (word ++ [c]).length = word.length + 1 := List.length_append
    have further : ∀ m ∈ most, (word ++ [c]).length ≤ m := by
      intro m hm
      rw [longer]
      rcases going with required | may
      · exact required.trans_le (feasible m hm)
      · exact Loop.mayGoOn_iff.mp may m hm
    rw [List.append_assoc, ← longer]
    refine leads_done (ih (by rw [cut, List.append_assoc]; rfl) ?_ further start)
    exact List.forall_mem_append.mpr ⟨accepted, List.forall_mem_singleton.mpr accepts_c⟩

/-- A repetition that may be left out. -/
theorem leads_optional {body : List Piece}
    (once : ∀ again, Leads text (.pieces flags body ::
      .again ⟨flags, .greedy, 0, some 1, body⟩ 1 again :: .pieces flags ps :: rest) st R)
    (without : Leads text (.pieces flags ps :: rest) st R) :
    Leads text (.pieces flags (.repetition .greedy 0 (some 1) body :: ps) :: rest) st R := by
  have loop : Leads text (.again ⟨flags, .greedy, 0, some 1, body⟩ 0 none :: .pieces flags ps ::
      rest) st R := leads_again rfl (fun _ => once) fun _ => without
  exact Leads.of_step loop fun _ _ => id

/-- After its one round it is over. -/
theorem leads_optional_over {body : List Piece} {again : Option Nat} (h : Leads text rest st R) :
    Leads text (.again ⟨flags, .greedy, 0, some 1, body⟩ 1 again :: rest) st R :=
  leads_again rfl (fun going => by simp [Loop.mayGoOn] at going) fun _ => h

/-- Behind every word of the language that is first in what is left, the tasks lead to `R`. -/
def LeadsBehind (text : Array Char) (L : Language Char) (before left : List Char)
    (groups : List (Nat × Nat × Nat)) (tasks : List Task) (R : Progress → Prop) : Prop :=
  ∀ word ∈ L, ∀ after, left = word ++ after →
    Leads text tasks ⟨(before ++ word).length, groups⟩ R

/-- A piece recognizes a language, takes nothing but words of it and leaves the groups alone. -/
structure Piece.Covers (text : Array Char) (flags : Flags) (p : Piece) (L : Language Char) :
    Prop where
  recognizes : p.Recognizes text flags L
  leads : ∀ ⦃ps rest before left groups R⦄, text.toList = before ++ left →
    LeadsBehind text L before left groups (.pieces flags ps :: rest) R →
    Leads text (.pieces flags (p :: ps) :: rest) ⟨before.length, groups⟩ R

/-- So does a sequence of pieces. -/
structure Covers (text : Array Char) (flags : Flags) (ps : List Piece) (L : Language Char) :
    Prop where
  recognizes : Recognizes text flags ps L
  leads : ∀ ⦃rest before left groups R⦄, text.toList = before ++ left →
    LeadsBehind text L before left groups rest R →
    Leads text (.pieces flags ps :: rest) ⟨before.length, groups⟩ R

theorem covers_nil : Covers text flags [] 1 where
  recognizes := recognizes_nil
  leads := by
    intro rest before left groups R _ behind
    have here := behind [] rfl left rfl
    rw [List.append_nil] at here
    exact leads_done here

theorem covers_cons (first : p.Covers text flags L) (others : Covers text flags ps M) :
    Covers text flags (p :: ps) (L * M) where
  recognizes := recognizes_cons first.recognizes others.recognizes
  leads := by
    intro rest before left groups R whole behind
    refine first.leads whole fun word mem after cut => ?_
    have whole' : text.toList = before ++ word ++ after := by rw [whole, cut, List.append_assoc]
    refine others.leads whole' fun next mem' after' cut' => ?_
    rw [List.append_assoc]
    exact behind (word ++ next) ⟨word, mem, next, mem', rfl⟩ after' (by simp [cut, cut'])

theorem covers_oneOf (takes : ∀ c, p.takes? flags c = some (accepts c)) :
    p.Covers text flags (oneOf accepts) where
  recognizes := recognizes_oneOf takes
  leads := by
    intro ps rest before left groups R whole behind
    exact leads_oneOf whole takes fun c after cut accepted =>
      behind [c] ⟨c, accepted, rfl⟩ after cut

theorem covers_rounds (takes : ∀ c, p.takes? flags c = some (accepts c))
    (feasible : ∀ m ∈ most, least ≤ m) :
    (Piece.repetition .greedy least most [p]).Covers text flags
      (rounds (oneOf accepts) least most 0) where
  recognizes := by
    have body : Recognizes text flags [p] (oneOf accepts * 1) :=
      recognizes_cons (recognizes_oneOf takes) recognizes_nil
    rw [mul_one] at body
    exact recognizes_repetition body nil_not_mem_oneOf feasible
  leads := by
    intro ps rest before left groups R whole behind
    have loop := leads_again_oneOf whole takes feasible behind rfl (List.forall_mem_nil _)
      (fun m _ => Nat.zero_le m) none
    rw [List.append_nil] at loop
    exact Leads.of_step loop fun _ _ => id

theorem covers_literal (cased : flags.ignoreCase = false) (c : Char) :
    (Piece.literal c.toNat).Covers text flags (oneOf (· == c)) :=
  covers_oneOf fun d => congrArg some (sameLetter_toNat cased c d)

/-- One of two characters. -/
theorem takes?_either (cased : flags.ignoreCase = false) (a b c : Char) :
    (Piece.set false [.literal a.toNat, .literal b.toNat]).takes? flags c =
      some (c == a || c == b) := by
  simp [Piece.takes?, Item.holds, sameLetter_toNat cased]

theorem covers_either (cased : flags.ignoreCase = false) (a b : Char) :
    (Piece.set false [.literal a.toNat, .literal b.toNat]).Covers text flags
      (oneOf fun c => c == a || c == b) :=
  covers_oneOf (takes?_either cased a b)

/-- A group holds the word that its pieces take. -/
theorem leads_group_covers {n : Nat} {on off : Flags} {body : List Piece}
    (inside : flags.within on off = inner) (words : Covers text inner body L)
    (whole : text.toList = before ++ left)
    (h : ∀ word ∈ L, ∀ after, left = word ++ after → Leads text (.pieces flags ps :: rest)
      ⟨(before ++ word).length, (n, before.length, (before ++ word).length) :: groups⟩ R) :
    Leads text (.pieces flags (.group (some n) on off body :: ps) :: rest)
      ⟨before.length, groups⟩ R :=
  leads_group inside (words.leads whole fun word mem after cut =>
    leads_close (h word mem after cut))

end

/-- What a group holds that was closed behind a word. -/
theorem held?_of_group {s : String} {m : Progress} {n : Nat} {word after : List Char}
    (whole : s.toList = before ++ (word ++ after))
    (group : m.group? n = some (before.length, (before ++ word).length)) :
    m.held? s n = some (String.ofList word) := by
  simp [Progress.held?, group, whole]

end Conform.Pattern
