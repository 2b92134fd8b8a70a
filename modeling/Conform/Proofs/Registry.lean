import Mathlib.Data.List.Induction
import Mathlib.Data.List.Nodup
import Conform.Proofs.Tag.Schema
import Conform.Registry
import Conform.Tree

/-! Registries over whole runs. What a registry holds is told by the entries made since it was last
cleared: the latest under each name, in the order in which the names first came. -/
namespace Conform

namespace Listing

variable {α : Type} {l k : Listing α} {name : String}

end Listing

namespace Registry

variable {α : Type} {r : Register} {builtins l l' : Listing α}

/-- What entering the built-in entries answers and leaves: all of them behind the old entries, or
those before the first whose name is taken. -/
inductive Filled (r : Register) (builtins l : Listing α) : Option EntryFault × Listing α → Prop
  | all (free : ∀ b ∈ builtins, b.1 ∉ l.names) : Filled r builtins l (none, l ++ builtins)
  | upTo {before after : Listing α} {b : String × α} (split : builtins = before ++ b :: after)
      (free : ∀ c ∈ before, c.1 ∉ l.names) (taken : b.1 ∈ l.names) :
      Filled r builtins l (some (.builtinTaken r b.1), l ++ before)

/-- The entries that a change has made, as its answer tells. -/
def made (builtins : Listing α) : Change α → Option EntryFault → List (String × α)
  | .enter name (some a) _, none => [(name, a)]
  | .builtins, none => builtins
  | .builtins, some (.builtinTaken _ name) => builtins.takeWhile (·.1 != name)
  | _, _ => []

/-- The entries made since the last clearing, oldest first, after one more change and its answer. -/
def record (builtins : Listing α) (before : List (String × α)) :
    Change α × Option EntryFault → List (String × α)
  | (.clear, _) => []
  | (c, answer) => before ++ made builtins c answer

/-- A registry tells of the entries made in it: the latest one of each name, the names standing in
the order in which they first came. -/
structure Tells (l : Listing α) (h : List (String × α)) : Prop where
  get? : ∀ name, l.get? name = Listing.get? name h.reverse
  has : ∀ name, l.has name = true ↔ name ∈ Listing.names h
  names : l.names = (Listing.names h).eraseDups
  distinct : l.names.Nodup
  length : l.length = (Listing.names h).eraseDups.length

end Registry

end Conform
