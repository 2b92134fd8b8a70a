/-!
Cutting a text at a separator. The parts joined by the separator give the text back, so nothing is
lost, and no part holds the separator.
-/
namespace Conform.Text

/-- The parts of a text between the separators; there is always at least one. -/
def splitAt (separator : Char) : List Char → List (List Char)
  | [] => [[]]
  | c :: cs =>
    if c = separator then [] :: splitAt separator cs
    else match splitAt separator cs with
      | part :: parts => (c :: part) :: parts
      | [] => [[c]]

theorem splitAt_ne_nil (separator : Char) (cs : List Char) : splitAt separator cs ≠ [] := by
  cases cs with
  | nil => simp [splitAt]
  | cons c cs =>
    rw [splitAt]
    split
    · simp
    · split <;> simp

theorem splitAt_cons_of_ne {separator c : Char} (h : c ≠ separator) (cs : List Char) :
    ∃ part parts, splitAt separator cs = part :: parts ∧
      splitAt separator (c :: cs) = (c :: part) :: parts := by
  cases hs : splitAt separator cs with
  | nil => exact absurd hs (splitAt_ne_nil separator cs)
  | cons part parts => exact ⟨part, parts, rfl, by simp [splitAt, h, hs]⟩

theorem intercalate_splitAt (separator : Char) (cs : List Char) :
    [separator].intercalate (splitAt separator cs) = cs := by
  induction cs with
  | nil => simp [splitAt]
  | cons c cs ih =>
    by_cases h : c = separator
    · cases hs : splitAt separator cs with
      | nil => exact absurd hs (splitAt_ne_nil separator cs)
      | cons part parts => simp_all [splitAt, List.intercalate]
    · obtain ⟨part, parts, hs, hc⟩ := splitAt_cons_of_ne h cs
      rw [hs] at ih
      rw [hc]
      cases parts <;> simp_all [List.intercalate]

theorem not_mem_of_mem_splitAt {separator : Char} {cs part : List Char}
    (h : part ∈ splitAt separator cs) : separator ∉ part := by
  induction cs generalizing part with
  | nil => simp_all [splitAt]
  | cons c cs ih =>
    by_cases hc : c = separator
    · rw [splitAt, if_pos hc, List.mem_cons] at h
      rcases h with rfl | h
      · exact List.not_mem_nil
      · exact ih h
    · obtain ⟨first, rest, hs, hcs⟩ := splitAt_cons_of_ne hc cs
      rw [hcs, List.mem_cons] at h
      rcases h with rfl | h
      · have hfirst : separator ∉ first := ih (by simp [hs])
        simp [hfirst, Ne.symm hc]
      · exact ih (by simp [hs, h])

variable {separator : Char} {part : List Char}

theorem splitAt_of_not_mem (h : separator ∉ part) : splitAt separator part = [part] := by
  induction part with
  | nil => rfl
  | cons c part ih =>
    rw [List.mem_cons, not_or] at h
    rw [splitAt, if_neg (Ne.symm h.1), ih h.2]

theorem splitAt_append_cons (h : separator ∉ part) (rest : List Char) :
    splitAt separator (part ++ separator :: rest) = part :: splitAt separator rest := by
  induction part with
  | nil => rw [List.nil_append, splitAt, if_pos rfl]
  | cons c part ih =>
    rw [List.mem_cons, not_or] at h
    rw [List.cons_append, splitAt, if_neg (Ne.symm h.1), ih h.2]

/-- Parts that are joined are found again, if there are any and none holds the separator. -/
theorem splitAt_intercalate {parts : List (List Char)} (filled : parts ≠ [])
    (h : ∀ part ∈ parts, separator ∉ part) :
    splitAt separator ([separator].intercalate parts) = parts := by
  induction parts with
  | nil => exact absurd rfl filled
  | cons part parts ih =>
    rw [List.forall_mem_cons] at h
    cases parts with
    | nil =>
      rw [List.intercalate_singleton]
      exact splitAt_of_not_mem h.1
    | cons next parts =>
      rw [List.intercalate_cons_cons, List.append_assoc, List.singleton_append,
        splitAt_append_cons h.1, ih (List.cons_ne_nil _ _) h.2]

end Conform.Text
