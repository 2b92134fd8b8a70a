import Conform.Path
import Conform.Proofs.Value.Json

/-! Steps through a value. A member and an element lead one level down where the value has them; a
branch of a conjunction stays at the value. -/
namespace Conform.Value

/-- The value one step further, if the step leads anywhere. -/
def step? : Value → Step → Option Value
  | .object _ ms, .member name => Listing.get? name ms
  | .array _ xs, .element i => xs[i]?
  | v, .branch _ => some v
  | _, _ => none

/-- The value at the end of some steps, if all of them lead somewhere. -/
def follow? (v : Value) (steps : List Step) : Option Value := steps.foldlM step? v

variable {v w : Value} {step : Step}

@[simp] theorem follow?_nil (v : Value) : v.follow? [] = some v := rfl

@[simp] theorem follow?_cons (v : Value) (step : Step) (steps : List Step) :
    v.follow? (step :: steps) = (v.step? step).bind fun w => w.follow? steps := rfl

theorem follow?_of_step (h : v.step? step = some w) (steps : List Step) :
    v.follow? (step :: steps) = w.follow? steps := by simp [h]

@[simp] theorem step?_branch (v : Value) (i : Nat) : v.step? (.branch i) = some v := by
  cases v <;> rfl

/-- A member or an element, and the step that names it. -/
inductive Part : Value → Step → Value → Prop
  | member {a : Access} {ms : List (String × Value)} {m : String × Value} (mem : m ∈ ms) :
    Part (.object a ms) (.member m.1) m.2
  | element {a : Access} {xs : List Value} {i : Nat} {x : Value} (found : xs[i]? = some x) :
    Part (.array a xs) (.element i) x

theorem part_of_get? {a : Access} {ms : List (String × Value)} {name : String}
    (h : Listing.get? name ms = some w) : (object a ms).Part (.member name) w :=
  .member (m := (name, w)) (Listing.mem_of_get? h)

/-- The members of an object with distinct names are found by their names. -/
theorem step?_of_mem {a : Access} {ms : List (String × Value)} (json : (object a ms).JsonLike)
    {m : String × Value} (h : m ∈ ms) : (object a ms).step? (.member m.1) = some m.2 :=
  Listing.get?_of_mem json.distinct h

/-- The step that names a part leads to it. -/
theorem JsonLike.step?_of_part (json : v.JsonLike) (part : v.Part step w) :
    v.step? step = some w := by
  cases part with
  | member mem => exact step?_of_mem json mem
  | element found => exact found

/-- A step through what JSON can write leads to what JSON can write. -/
theorem JsonLike.of_step? (json : v.JsonLike) (h : v.step? step = some w) : w.JsonLike := by
  cases step with
  | member name =>
    cases v <;> simp only [step?, reduceCtorEq] at h
    apply json.of_mem_members (Listing.mem_of_get? h)
  | element i =>
    cases v <;> simp only [step?, reduceCtorEq] at h
    apply json.of_mem_items (List.mem_of_getElem? h)
  | branch i =>
    rw [step?_branch] at h
    cases h
    exact json

end Conform.Value
