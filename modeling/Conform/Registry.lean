import Conform.Fault
import Conform.Listing

/-!
Registration under a name. A refused entry changes nothing; a replaced one keeps its place.
-/
namespace Conform.Registry

variable {α : Type}

/-- Enters a function, which may be missing. -/
def enter (r : Register) (replace : Bool) (name : String) (entry : Option α) (l : Listing α) :
    Except EntryFault (Listing α) :=
  if name.isEmpty then .error (.emptyName r)
  else match entry with
    | none => .error (.missingFunction r)
    | some a => if !replace && l.has name then .error (.taken r name) else .ok (l.put name a)

/-- Enters the built-in entries one after the other up to the first whose name is taken. -/
def enterBuiltins (r : Register) : Listing α → Listing α → Option EntryFault × Listing α
  | [], l => (none, l)
  | (name, a) :: rest, l =>
    if l.has name then (some (.builtinTaken r name), l)
    else enterBuiltins r rest (l.put name a)

/-- A change asked of a registry. -/
inductive Change (α : Type)
  | enter (name : String) (entry : Option α) (replace : Bool)
  | builtins
  | clear

/-- Why a change is refused, if it is, and what it leaves. -/
def apply (r : Register) (builtins l : Listing α) : Change α → Option EntryFault × Listing α
  | .enter name entry replace => match enter r replace name entry l with
    | .ok entered => (none, entered)
    | .error fault => (some fault, l)
  | .builtins => enterBuiltins r builtins l
  | .clear => (none, [])

/-- Changes one after the other: the answer to each, and what they leave. -/
def run (r : Register) (builtins : Listing α) :
    Listing α → List (Change α) → List (Option EntryFault) × Listing α
  | l, [] => ([], l)
  | l, c :: cs =>
    let (answer, l) := apply r builtins l c
    let (answers, l) := run r builtins l cs
    (answer :: answers, l)

theorem enter_of_not_has {r : Register} {replace : Bool} {name : String} {a : α} {l : Listing α}
    (h : name.isEmpty = false) (hl : l.has name = false) :
    enter r replace name (some a) l = .ok (l.put name a) := by
  simp [enter, h, hl]

end Conform.Registry
