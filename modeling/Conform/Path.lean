/-!
Paths to the place that a finding is about: a root and the steps from it. Only the text of a path is
ever shown.
-/
namespace Conform

inductive Step
  | member (name : String)
  | element (index : Nat)
  /-- A branch of a conjunction, which stays at the same value. -/
  | branch (index : Nat)
  deriving DecidableEq

structure Path where
  root : String
  steps : List Step
  deriving DecidableEq

namespace Path

/-- A name after a path: nothing stands between them if the path is empty. -/
def join (path name : String) : String := if path.isEmpty then name else path ++ "." ++ name

/-- A position after a path. -/
def index (path : String) (i : Nat) : String := path ++ "[" ++ toString i ++ "]"

def branchName (i : Nat) : String := index "allOf" i

def stepText (path : String) : Step → String
  | .member name => join path name
  | .element i => index path i
  | .branch i => join path (branchName i)

def text (p : Path) : String := p.steps.foldl stepText p.root

def ofString (root : String) : Path := ⟨root, []⟩

def child (p : Path) (s : Step) : Path := { p with steps := p.steps ++ [s] }

/-- The same place below another path. -/
def under (prefixText : String) (p : Path) : Path := ofString (join prefixText p.text)

@[simp] theorem text_ofString (root : String) : (ofString root).text = root := rfl

@[simp] theorem text_child (p : Path) (s : Step) : (p.child s).text = stepText p.text s := by
  simp [text, child, List.foldl_append]

end Path

end Conform
