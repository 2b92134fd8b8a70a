import Conform.Proofs.Path

/-! Steps read back from the text of a path. Each step opens with a point or a bracket, which an
ordinary name has nowhere in it, so that the text tells where one step ends and which is the next. -/
namespace Conform

namespace Path

/-- The characters that steps open with. -/
def Opens (c : Char) : Prop := c = '.' ∨ c = '['

/-- A name in which no step opens. It may be empty. -/
def Ordinary (name : String) : Prop := '.' ∉ name.toList ∧ '[' ∉ name.toList

theorem Ordinary.not_opens {name : String} (h : Ordinary name) : ∀ c ∈ name.toList, ¬ Opens c := by
  rintro c hc (rfl | rfl)
  · exact h.1 hc
  · exact h.2 hc

end Path

/-- An element, or a member with an ordinary name. -/
def Step.Ordinary : Step → Prop
  | .member name => Path.Ordinary name
  | .element _ => True
  | .branch _ => False

namespace Path

section

variable {P : Char → Prop} {x y A B : List Char}

theorem eq_nil_of_not_stops (free : ∀ c ∈ x, ¬ P c) (stopped : ∀ c ∈ (x ++ A).head?, P c) :
    x = [] := by
  cases x with
  | nil => rfl
  | cons c cs => exact absurd (stopped c rfl) (free c (.head _))

/-- A text without stops ends where the first one stands. -/
theorem append_inj_of_stops (hx : ∀ c ∈ x, ¬ P c) (hy : ∀ c ∈ y, ¬ P c)
    (hA : ∀ c ∈ A.head?, P c) (hB : ∀ c ∈ B.head?, P c) (same : x ++ A = y ++ B) :
    x = y ∧ A = B := by
  rcases List.append_eq_append_iff.mp same with ⟨more, rfl, rfl⟩ | ⟨more, rfl, rfl⟩
  · obtain rfl := eq_nil_of_not_stops (fun c hc => hy c (List.mem_append_right x hc)) hA
    exact ⟨(List.append_nil x).symm, rfl⟩
  · obtain rfl := eq_nil_of_not_stops (fun c hc => hx c (List.mem_append_right y hc)) hB
    exact ⟨List.append_nil y, rfl⟩

end

section

variable {A B : List Char} {step step' : Step} {steps steps' : List Step} {root : String}

theorem toList_stepSuffix_member (name : String) :
    (stepSuffix (.member name)).toList = '.' :: name.toList := by
  rw [stepSuffix, String.toList_append]
  rfl

theorem toList_stepSuffix_element (i : Nat) :
    (stepSuffix (.element i)).toList = '[' :: (Nat.toDigits 10 i ++ [']']) := by
  rw [stepSuffix, index, String.empty_append, String.toList_append, String.toList_append,
    Nat.toString_eq_repr, Nat.toList_repr]
  rfl

theorem ne_bracket_of_mem_toDigits {i : Nat} : ∀ c ∈ Nat.toDigits 10 i, ¬ c = ']' := by
  rintro c hc rfl
  have digit : Char.isDigit ']' = true := Nat.isDigit_of_mem_toDigits (by decide) (by decide) hc
  cases digit

theorem toDigits_injective {i j : Nat} (h : Nat.toDigits 10 i = Nat.toDigits 10 j) : i = j := by
  have read (n : Nat) : Nat.ofDigitChars 10 (Nat.toDigits 10 n) 0 = n :=
    Nat.ofDigitChars_toDigits (by decide) (by decide)
  rw [← read i, h, read]

/-- What an ordinary step adds to a path tells the step, whatever step comes next. -/
theorem step_inj_of_append (hs : step.Ordinary) (ht : step'.Ordinary)
    (hA : ∀ c ∈ A.head?, Opens c) (hB : ∀ c ∈ B.head?, Opens c)
    (same : (stepSuffix step).toList ++ A = (stepSuffix step').toList ++ B) :
    step = step' ∧ A = B := by
  cases step with
  | branch => exact hs.elim
  | member name =>
    rw [toList_stepSuffix_member] at same
    cases step' with
    | branch => exact ht.elim
    | element j =>
      rw [toList_stepSuffix_element] at same
      cases (List.cons.inj same).1
    | member name' =>
      rw [toList_stepSuffix_member] at same
      obtain ⟨names, rest⟩ := append_inj_of_stops (Ordinary.not_opens hs) (Ordinary.not_opens ht)
        hA hB (List.cons.inj same).2
      exact ⟨congrArg Step.member (String.toList_injective names), rest⟩
  | element i =>
    rw [toList_stepSuffix_element] at same
    cases step' with
    | branch => exact ht.elim
    | member name =>
      rw [toList_stepSuffix_member] at same
      cases (List.cons.inj same).1
    | element j =>
      rw [toList_stepSuffix_element, List.cons_append, List.cons_append, List.append_assoc,
        List.append_assoc] at same
      obtain ⟨numbers, rest⟩ := append_inj_of_stops (P := (· = ']'))
        ne_bracket_of_mem_toDigits ne_bracket_of_mem_toDigits (by simp) (by simp)
        (List.cons.inj same).2
      exact ⟨congrArg Step.element (toDigits_injective numbers), (List.cons.inj rest).2⟩

theorem toList_suffix_cons (root : String) (step : Step) (steps : List Step) :
    (suffix ⟨root, step :: steps⟩).toList =
      (stepSuffix step).toList ++ (suffix ⟨root, steps⟩).toList := by
  rw [← String.toList_append]
  rfl

theorem exists_opens (step : Step) : ∃ c cs, (stepSuffix step).toList = c :: cs ∧ Opens c := by
  cases step with
  | member name => exact ⟨'.', _, toList_stepSuffix_member name, .inl rfl⟩
  | element i => exact ⟨'[', _, toList_stepSuffix_element i, .inr rfl⟩
  | branch i => exact ⟨'.', _, toList_stepSuffix_member (branchName i), .inl rfl⟩

theorem opens_of_mem_head? (root : String) (steps : List Step) :
    ∀ c ∈ (suffix ⟨root, steps⟩).toList.head?, Opens c := by
  cases steps with
  | nil => nofun
  | cons step steps =>
    obtain ⟨c, cs, text, opens⟩ := exists_opens step
    rw [toList_suffix_cons, text]
    rintro _ ⟨⟩
    exact opens

theorem suffix_cons_ne (root : String) (step : Step) (steps : List Step) :
    suffix ⟨root, []⟩ ≠ suffix ⟨root, step :: steps⟩ := by
  obtain ⟨c, cs, text, -⟩ := exists_opens step
  intro same
  have chars := congrArg String.toList same
  rw [toList_suffix_cons, text] at chars
  cases chars

theorem steps_eq_of_suffix_eq (ordinary : ∀ t ∈ steps, t.Ordinary)
    (ordinary' : ∀ t ∈ steps', t.Ordinary)
    (same : suffix ⟨root, steps⟩ = suffix ⟨root, steps'⟩) : steps = steps' := by
  induction steps generalizing steps' with
  | nil =>
    cases steps' with
    | nil => rfl
    | cons step' steps' => exact absurd same (suffix_cons_ne root step' steps')
  | cons step steps ih =>
    cases steps' with
    | nil => exact absurd same.symm (suffix_cons_ne root step steps)
    | cons step' steps' =>
      rw [List.forall_mem_cons] at ordinary ordinary'
      have chars := congrArg String.toList same
      rw [toList_suffix_cons, toList_suffix_cons] at chars
      obtain ⟨rfl, rest⟩ := step_inj_of_append ordinary.1 ordinary'.1
        (opens_of_mem_head? root steps) (opens_of_mem_head? root steps') chars
      rw [ih ordinary.2 ordinary'.2 (String.toList_injective rest)]

/-- Below a root that is not empty, the text of a path tells its steps. -/
theorem steps_eq_of_foldl_eq (filled : root ≠ "") (ordinary : ∀ t ∈ steps, t.Ordinary)
    (ordinary' : ∀ t ∈ steps', t.Ordinary)
    (same : steps.foldl stepText root = steps'.foldl stepText root) : steps = steps' := by
  rw [foldl_stepText_of_ne filled, foldl_stepText_of_ne filled, String.append_right_inj] at same
  exact steps_eq_of_suffix_eq ordinary ordinary' same

end

end Path

end Conform
