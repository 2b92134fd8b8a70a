import Conform.Keyword
import Conform.Pattern.Matcher
import Conform.Tree
import Conform.Value.Equal
import Conform.Value.JsonType

/-! What schemas mean: a predicate on values, by recursion on the raw schema. A schema holds where
all its keywords do. No order, path, finding or failure plays a part in it, and each keyword reads
its siblings as they stand in the schema. -/
namespace Conform

/-- Whether a number keeps a bound, said by the order of numbers alone. -/
def Bound.met : Bound → Number → Number → Bool
  | .minimum, n, bound => bound.lessOrEqual n
  | .maximum, n, bound => n.lessOrEqual bound
  | .exclusiveMinimum, n, bound => bound.less n
  | .exclusiveMaximum, n, bound => n.less bound

/-- The size that a limit is about, for values of its kind. -/
def Limit.count? : Limit → Value → Option Nat
  | .minLength, .string s | .maxLength, .string s => some s.length
  | .minItems, .array _ xs | .maxItems, .array _ xs => some xs.length
  | .minProperties, .object _ ms | .maxProperties, .object _ ms => some ms.length
  | _, _ => none

def Limit.met : Limit → Nat → Int → Bool
  | .minLength, n, limit | .minItems, n, limit | .minProperties, n, limit => limit ≤ n
  | .maxLength, n, limit | .maxItems, n, limit | .maxProperties, n, limit => n ≤ limit

namespace Schema

/-- What a run brings to a schema: how unknown formats are taken, and the known ones. -/
structure Setting where
  mode : Mode
  formats : Listing Checker

/-- The readings of a raw value that a keyword chooses from: as it is, as a schema, as a list of
schemas, as schemas by name. -/
structure Sense where
  raw : Value
  holds : Value → Bool
  elements : List (Value → Bool) := []
  members : List (String × Value × (Value → Bool)) := []

/-- What keywords know of their siblings. -/
structure Scope where
  declared : List String
  patterns : List String
  condition : Option (Value → Bool)

/-- Whether a text holds a match of a pattern. -/
def searches (pattern text : String) : Bool :=
  match Pattern.compile pattern with
  | .ok p => p.search text
  | .error _ => false

/-- The names in a name or a list of names. -/
def texts : Value → List String
  | .string s => [s]
  | .array _ xs => xs.filterMap Value.string?
  | _ => []

/-- No two elements at different places are equal, whichever comes first. -/
def allDifferent : List Value → Bool
  | [] => true
  | x :: xs => xs.all (fun y => !x.same y && !y.same x) && allDifferent xs

def divides (d n : Number) : Bool :=
  match n.isMultipleOf d with
  | .ok b => b
  | .error _ => false

/-- An unknown format asks for nothing in loose mode and for too much in the others. -/
def Setting.admits (g : Setting) (format text : String) : Bool :=
  match Listing.get? format g.formats with
  | some checker => match checker.check text with
    | .ok b => b
    | .error _ => false
  | none => g.mode == .loose

/-- Names that the schema speaks of, in its properties or by a pattern. -/
def Scope.covers (scope : Scope) (name : String) : Bool :=
  scope.declared.contains name || scope.patterns.any fun p => searches p name

/-- The schemas that a keyword gives by name. -/
def scopeOf (ss : List (String × Sense)) : Scope where
  declared := (((Listing.get? Keyword.properties.name ss).map (·.members)).getD []).map (·.1)
  patterns := (((Listing.get? Keyword.patternProperties.name ss).map (·.members)).getD []).map (·.1)
  condition := (Listing.get? Clause.condition.name ss).map (·.holds)

/-- What a dependency asks once its member is there: names beside it, or a schema for its value. -/
def dependencyHolds (raw : Value) (holds : Value → Bool) (ms : List (String × Value)) (v : Value) :
    Bool :=
  match raw with
  | .array a xs => (texts (.array a xs)).all fun name => Listing.has name ms
  | _ => holds v

/-- What one keyword asks of a value. Keywords about the parts of arrays and objects ask nothing of
other values; all others ask for a value of their own kind. -/
def clause (g : Setting) (scope : Scope) (p : Sense) (v : Value) : Keyword → Bool
  | .type => (texts p.raw).any fun name => JsonType.namedAdmits name v
  | .bound b => v.number?.any fun n => p.raw.number?.any fun bound => b.met n bound
  | .multipleOf => v.number?.any fun n =>
    p.raw.number?.any fun d => (Number.integer 0).less d && divides d n
  | .limit l => (l.count? v).any fun n => p.raw.toInt?.any fun limit => l.met n limit
  | .pattern => v.string?.any fun text => p.raw.string?.any fun pattern => searches pattern text
  | .uniqueItems => p.raw.bool? == some false || v.items?.any allDifferent
  | .enum => (p.raw.items?.getD []).any fun allowed => v.same allowed
  | .format => v.string?.any fun text => p.raw.string?.any fun name => g.admits name text
  | .required => v.members?.any fun ms => (texts p.raw).all fun name => Listing.has name ms
  | .properties => v.members?.all fun ms =>
    p.members.all fun m => (Listing.get? m.1 ms).all m.2.2
  | .patternProperties => v.members?.all fun ms =>
    ms.all fun m => p.members.all fun q => !searches q.1 m.1 || q.2.2 m.2
  | .additionalProperties => v.members?.all fun ms =>
    ms.all fun m => scope.covers m.1 || match p.raw with
      | .bool b => b
      | _ => p.holds m.2
  | .items => v.items?.all fun xs => match p.raw with
    | .array .. => (xs.zip p.elements).all fun t => t.2 t.1
    | _ => xs.all p.holds
  | .dependencies => v.members?.all fun ms =>
    p.members.all fun d => (Listing.get? d.1 ms).all (dependencyHolds d.2.1 d.2.2 ms)
  | .combine .allOf => p.elements.all fun holds => holds v
  | .combine .anyOf => p.elements.any fun holds => holds v
  | .combine .oneOf => p.elements.countP (fun holds => holds v) == 1
  | .negation => !p.holds v
  | .clause .condition => true
  | .clause .consequent => scope.condition.all fun c => !c v || p.holds v
  | .clause .alternative => scope.condition.all fun c => c v || p.holds v

/-- Keys that are no keywords ask for nothing. -/
def node (g : Setting) (ss : List (String × Sense)) (v : Value) : Bool :=
  ss.all fun s => match Keyword.ofName? s.1 with
    | some k => clause g (scopeOf ss) s.2 v k
    | none => true

mutual

def sense (g : Setting) : Value → Sense
  | .object a ms =>
    let ss := senses g ms
    { raw := .object a ms, holds := node g ss,
      members := ss.map fun s => (s.1, s.2.raw, s.2.holds) }
  | .array a xs =>
    { raw := .array a xs, holds := fun _ => true, elements := (senseItems g xs).map (·.holds) }
  | raw => { raw, holds := fun _ => true }

def senseItems (g : Setting) : List Value → List Sense
  | [] => []
  | x :: xs => sense g x :: senseItems g xs

def senses (g : Setting) : List (String × Value) → List (String × Sense)
  | [] => []
  | (key, v) :: ms => (key, sense g v) :: senses g ms

end

/-- Whether a value satisfies a raw schema. -/
def satisfies (g : Setting) (raw v : Value) : Bool := (sense g raw).holds v

variable {g : Setting}

theorem senses_eq_map (ms : List (String × Value)) :
    senses g ms = ms.map fun m => (m.1, sense g m.2) := by
  induction ms with
  | nil => rfl
  | cons m ms ih => rw [senses, ih, List.map_cons]

theorem get?_senses (key : String) (ms : List (String × Value)) :
    Listing.get? key (senses g ms) = (Listing.get? key ms).map (sense g) := by
  rw [senses_eq_map]
  exact Listing.get?_map (sense g) key ms

@[simp] theorem raw_sense (raw : Value) : (sense g raw).raw = raw := by
  cases raw <;> rfl

theorem members_sense (a : Access) (ms : List (String × Value)) :
    (sense g (.object a ms)).members = ms.map fun m => (m.1, m.2, satisfies g m.2) := by
  rw [sense, senses_eq_map, List.map_map]
  simp only [Function.comp_def, raw_sense]
  rfl

/-- The recursion that the meaning of schemas comes down to. -/
theorem satisfies_object (a : Access) (ms : List (String × Value)) (v : Value) :
    satisfies g (.object a ms) v = ms.all fun m => match Keyword.ofName? m.1 with
      | some k => clause g (scopeOf (senses g ms)) (sense g m.2) v k
      | none => true := by
  rw [satisfies, sense]
  change node g (senses g ms) v = _
  rw [node, senses_eq_map, List.all_map]
  rfl

theorem scopeOf_congr {ss ts : List (String × Sense)}
    (same : ∀ key, Listing.get? key ss = Listing.get? key ts) : scopeOf ss = scopeOf ts := by
  unfold scopeOf
  rw [same, same, same]

/-- The order in which a schema lists its keywords has no say in what it means. -/
theorem satisfies_perm {a b : Access} {ms ns : List (String × Value)}
    (distinct : (Listing.names ms).Nodup) (h : ms.Perm ns) (v : Value) :
    satisfies g (.object a ms) v = satisfies g (.object b ns) v := by
  have scope : scopeOf (senses g ms) = scopeOf (senses g ns) := by
    refine scopeOf_congr fun key => ?_
    rw [get?_senses, get?_senses, Listing.get?_perm distinct h]
  rw [satisfies_object, satisfies_object, scope]
  exact h.all_eq

end Schema

end Conform
