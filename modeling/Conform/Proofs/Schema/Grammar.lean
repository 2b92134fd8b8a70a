import Conform.Keyword
import Conform.Pattern.Matcher
import Conform.Value.JsonType

/-! The grammar of schemas, said of raw values alone: which positions hold schemas, and which shape
each keyword asks for. -/
namespace Conform

def Value.isObject : Value → Bool
  | .object .. => true
  | _ => false

def Value.isText (v : Value) : Bool := v.string?.isSome

/-- The name of one of the seven types. -/
def Value.isTypeName (v : Value) : Bool := v.string?.any fun s => (JsonType.ofName? s).isSome

namespace Schema

/-- A pattern that can be read. -/
def readable (pattern : String) : Bool := (Pattern.compile pattern).isOk

/-- The values at the schema positions directly under a keyword. -/
def subschemas : Keyword → Value → List Value
  | .properties, .object _ ms | .patternProperties, .object _ ms => ms.map (·.2)
  | .dependencies, .object _ ms => (ms.map (·.2)).filter Value.isObject
  | .items, .array _ xs | .combine _, .array _ xs => xs
  | .additionalProperties, v | .items, v | .negation, v | .clause _, v => [v].filter Value.isObject
  | _, _ => []

/-- A keyword's value with something else at its schema positions. Values that are no objects are
expected to stay as they are. -/
def mapSubschemas (f : Value → Value) : Keyword → Value → Value
  | .properties, .object a ms | .patternProperties, .object a ms | .dependencies, .object a ms =>
    .object a (ms.map fun m => (m.1, f m.2))
  | .items, .array a xs | .combine _, .array a xs => .array a (xs.map f)
  | .additionalProperties, v | .items, v | .negation, v | .clause _, v => f v
  | _, v => v

/-- What a keyword's value has to look like, apart from the schemas in it. -/
def shaped : Keyword → Value → Bool
  | .type, .array _ xs => !xs.isEmpty && xs.all Value.isTypeName
  | .type, v => v.isTypeName
  | .bound _, v | .multipleOf, v => v.number?.isSome
  | .limit _, v => v.toInt?.any fun i => 0 ≤ i
  | .pattern, v => v.string?.any readable
  | .uniqueItems, v => v.bool?.isSome
  | .enum, v => v.items?.isSome
  | .format, _ => true
  | .required, .array _ xs => xs.all Value.isText
  | .properties, .object _ ms => ms.all fun m => m.2.isObject
  | .patternProperties, .object _ ms => ms.all fun m => readable m.1 && m.2.isObject
  | .additionalProperties, v => v.bool?.isSome || v.isObject
  | .items, .array _ xs => xs.all Value.isObject
  | .items, v => v.isObject
  | .dependencies, .object _ ms => ms.all fun m =>
    m.2.isObject || m.2.items?.any fun names => names.all Value.isText
  | .combine _, .array _ xs => !xs.isEmpty && xs.all Value.isObject
  | .negation, .object _ ms => ms.any fun m => (Keyword.ofName? m.1).isSome
  | .clause _, v => v.isObject
  | _, _ => false

/-- A value at a schema position of another: that one itself, or one further in. -/
inductive Position (raw : Value) : Value → Prop
  | root : Position raw raw
  | under {a : Access} {ms : List (String × Value)} {k : Keyword} {v sub : Value}
    (outer : Position raw (.object a ms)) (mem : (k.name, v) ∈ ms) (inner : sub ∈ subschemas k v) :
    Position raw sub

/-- A key with its value that may stand in a schema: a note, or a keyword of the right shape. -/
def Allowed (key : String) (v : Value) : Prop :=
  key ≠ referenceKey ∧
    (key ∈ descriptiveKeys ∨ ∃ k, Keyword.ofName? key = some k ∧ shaped k v = true)

/-- A schema: an object that holds nothing but allowed keys, at any of its schema positions. -/
def Grammatical (raw : Value) : Prop :=
  raw.isObject = true ∧
    ∀ a ms, Position raw (.object a ms) → ∀ key v, (key, v) ∈ ms → Allowed key v

theorem Position.trans {r s t : Value} (h : Position r s) (h' : Position s t) : Position r t := by
  induction h' with
  | root => exact h
  | under _ mem inner ih => exact .under ih mem inner

/-- What is further in than an object is at or further in than a schema under one of its keywords. -/
theorem Position.eq_or_under {a : Access} {ms : List (String × Value)} {t : Value}
    (h : Position (.object a ms) t) : t = .object a ms ∨
      ∃ (k : Keyword) (v sub : Value), (k.name, v) ∈ ms ∧ sub ∈ subschemas k v ∧
        Position sub t := by
  induction h with
  | root => exact .inl rfl
  | @under b ns k v sub outer mem inner ih =>
    rcases ih with same | ⟨j, w, top, mem', inner', pos⟩
    · cases same
      exact .inr ⟨k, v, sub, mem, inner, .root⟩
    · exact .inr ⟨j, w, top, mem', inner', .under pos mem inner⟩

/-- A schema inside a schema is one. -/
theorem Grammatical.sub {a : Access} {ms : List (String × Value)} {k : Keyword} {v sub : Value}
    (h : Grammatical (.object a ms)) (mem : (k.name, v) ∈ ms) (inner : sub ∈ subschemas k v)
    (object : sub.isObject) : Grammatical sub :=
  ⟨object, fun b ns pos => h.2 b ns ((Position.under .root mem inner).trans pos)⟩

theorem readable_iff {pattern : String} :
    readable pattern = true ↔ ∃ p, Pattern.compile pattern = .ok p := by
  unfold readable
  cases Pattern.compile pattern <;> simp [Except.isOk, Except.toBool]

theorem isObject_iff {v : Value} : v.isObject = true ↔ ∃ a ms, v = .object a ms := by
  cases v <;> simp [Value.isObject]

theorem isText_iff {v : Value} : v.isText = true ↔ ∃ s, v = .string s := by
  cases v <;> simp [Value.isText, Value.string?]

theorem isTypeName_iff {v : Value} :
    v.isTypeName = true ↔ ∃ s, v = .string s ∧ (JsonType.ofName? s).isSome := by
  cases v <;> simp [Value.isTypeName, Value.string?]

theorem sizeOf_member_lt {a : Access} {ms : List (String × Value)} {m : String × Value}
    (h : m ∈ ms) : sizeOf m.2 < sizeOf (Value.object a ms) := by
  have inList := List.sizeOf_lt_of_mem h
  obtain ⟨key, v⟩ := m
  simp only [Value.object.sizeOf_spec, Prod.mk.sizeOf_spec] at *
  omega

/-- A schema under a keyword is the keyword's value or a part of it. -/
theorem sizeOf_le_of_mem_subschemas {k : Keyword} {v sub : Value} (h : sub ∈ subschemas k v) :
    sizeOf sub ≤ sizeOf v := by
  unfold subschemas at h
  split at h
  case h_1 | h_2 =>
    obtain ⟨m, hm, rfl⟩ := List.mem_map.mp h
    exact Nat.le_of_lt (sizeOf_member_lt hm)
  case h_3 =>
    obtain ⟨m, hm, rfl⟩ := List.mem_map.mp (List.mem_filter.mp h).1
    exact Nat.le_of_lt (sizeOf_member_lt hm)
  case h_4 | h_5 =>
    have inList := List.sizeOf_lt_of_mem h
    simp only [Value.array.sizeOf_spec]
    omega
  case h_10 => cases h
  all_goals
    obtain rfl := List.mem_singleton.mp (List.mem_filter.mp h).1
    exact Nat.le_refl _

/-- What passes from containers to all that they hold passes to the schemas under a keyword. -/
theorem of_mem_subschemas {P : Value → Prop} (items : ∀ a xs, P (.array a xs) → ∀ x ∈ xs, P x)
    (members : ∀ a ms, P (.object a ms) → ∀ m ∈ ms, P m.2) {k : Keyword} {v sub : Value}
    (value : P v) (h : sub ∈ subschemas k v) : P sub := by
  unfold subschemas at h
  split at h
  case h_1 | h_2 =>
    obtain ⟨m, hm, rfl⟩ := List.mem_map.mp h
    exact members _ _ value m hm
  case h_3 =>
    obtain ⟨m, hm, rfl⟩ := List.mem_map.mp (List.mem_filter.mp h).1
    exact members _ _ value m hm
  case h_4 | h_5 => exact items _ _ value sub h
  case h_10 => cases h
  all_goals
    obtain rfl := List.mem_singleton.mp (List.mem_filter.mp h).1
    exact value

/-- What passes from containers to all that they hold passes to every schema position. -/
theorem of_position {P : Value → Prop} (items : ∀ a xs, P (.array a xs) → ∀ x ∈ xs, P x)
    (members : ∀ a ms, P (.object a ms) → ∀ m ∈ ms, P m.2) {raw sub : Value} (root : P raw)
    (pos : Position raw sub) : P sub := by
  induction pos with
  | root => exact root
  | under _ mem inner ih => exact of_mem_subschemas items members (members _ _ ih _ mem) inner

/-- Induction over schemas: a property of an object may be had for all schemas under its keywords. -/
theorem induction {P : Value → Prop}
    (object : ∀ a ms, (∀ k v, (Keyword.name k, v) ∈ ms → ∀ sub ∈ subschemas k v, P sub) →
      P (.object a ms))
    (other : ∀ v : Value, v.isObject = false → P v) (raw : Value) : P raw := by
  -- on size and not on the value: the schema under a keyword may be the whole of its value
  induction hs : sizeOf raw using Nat.strongRecOn generalizing raw with
  | _ size ih =>
    cases raw
    case object a ms =>
      refine object a ms fun k v mem sub inner => ih (sizeOf sub) ?_ sub rfl
      rw [← hs]
      exact Nat.lt_of_le_of_lt (sizeOf_le_of_mem_subschemas inner) (sizeOf_member_lt mem)
    all_goals exact other _ rfl

theorem mapSubschemas_id (k : Keyword) (v : Value) : mapSubschemas id k v = v := by
  cases k <;> cases v <;> simp [mapSubschemas]

end Schema

end Conform
