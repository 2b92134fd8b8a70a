import Conform.Path

/-! Paths moved below another. A prefix is put before the text of a path that is not empty, and the
steps after it read the same. What steps add to such a text does not depend on it. -/
namespace Conform.Path

variable {path : String}

@[simp] theorem join_empty (name : String) : join "" name = name := rfl

theorem join_of_ne (filled : path ≠ "") (name : String) :
    join path name = path ++ "." ++ name := by
  simp [join, filled]

theorem join_ne_empty (filled : path ≠ "") (above : String) : join above path ≠ "" := by
  unfold join
  split
  · exact filled
  · simp

/-- Below a path that is not empty it makes no difference where a prefix is put first. -/
theorem join_join (filled : path ≠ "") (above name : String) :
    join (join above path) name = join above (join path name) := by
  by_cases bare : above = ""
  · rw [bare, join_empty, join_empty]
  · rw [join_of_ne (join_ne_empty filled above), join_of_ne bare, join_of_ne filled,
      join_of_ne bare]
    simp only [String.append_assoc]

theorem index_join (above : String) (i : Nat) :
    index (join above path) i = join above (index path i) := by
  by_cases bare : above = ""
  · rw [bare, join_empty, join_empty]
  · rw [join_of_ne bare, join_of_ne bare]
    simp only [index, String.append_assoc]

theorem stepText_ne_empty (filled : path ≠ "") (step : Step) : stepText path step ≠ "" := by
  cases step with
  | member name | branch i =>
    rw [stepText, join_of_ne filled]
    simp
  | element i => simp [stepText, index]

theorem stepText_join (filled : path ≠ "") (above : String) (step : Step) :
    stepText (join above path) step = join above (stepText path step) := by
  cases step with
  | member name => exact join_join filled above name
  | element i => exact index_join above i
  | branch i => exact join_join filled above (branchName i)

theorem foldl_stepText_join (filled : path ≠ "") (above : String) (steps : List Step) :
    steps.foldl stepText (join above path) = join above (steps.foldl stepText path) := by
  induction steps generalizing path with
  | nil => rfl
  | cons step steps ih =>
    rw [List.foldl_cons, List.foldl_cons, stepText_join filled]
    exact ih (stepText_ne_empty filled step)

/-- What a step adds to the text of a path that is not empty. -/
def stepSuffix : Step → String
  | .member name => "." ++ name
  | .element i => index "" i
  | .branch i => "." ++ branchName i

/-- The text of a path after its root. -/
def suffix (p : Path) : String := p.steps.foldr (fun step text => stepSuffix step ++ text) ""

theorem stepText_of_ne (filled : path ≠ "") (step : Step) :
    stepText path step = path ++ stepSuffix step := by
  cases step with
  | member name | branch i => rw [stepText, join_of_ne filled, stepSuffix, String.append_assoc]
  | element i => simp only [stepText, stepSuffix, index, String.empty_append, String.append_assoc]

theorem foldl_stepText_of_ne (filled : path ≠ "") (steps : List Step) :
    steps.foldl stepText path = path ++ suffix ⟨path, steps⟩ := by
  unfold suffix
  induction steps generalizing path with
  | nil => exact String.append_empty.symm
  | cons step steps ih =>
    rw [List.foldl_cons, List.foldr_cons, ih (stepText_ne_empty filled step),
      stepText_of_ne filled, String.append_assoc]

theorem text_eq_append {p : Path} (filled : p.root ≠ "") : p.text = p.root ++ p.suffix :=
  foldl_stepText_of_ne filled p.steps

end Conform.Path
