import Conform.Proofs.Json.Rendering
import Conform.Report

/-! Reports as JSON text. The objects of a report leave out what a finding does not have, so each
finding is read back from its object, with the value that it shows out of its frozen containers. -/
namespace Conform

namespace Json.Durable

variable {v : Value}

/-- There is nothing to thaw. -/
theorem thaw_eq (h : Durable v) : v.thaw = v := by
  induction h with
  | null | bool | integer | double | string => rfl
  | array _ ih =>
    rw [Value.list, Value.thaw, Value.thawItems_eq_map, List.map_congr_left ih, List.map_id']
  | @object ms _ _ ih =>
    have members : ms.map (fun m => (m.1, m.2.thaw)) = ms :=
      (List.map_congr_left fun m hm => congrArg (m.1, ·) (ih m hm)).trans (List.map_id ms)
    rw [Value.thaw, Value.thawMembers_eq_map, members]

end Json.Durable

namespace Report

/-- What a report says of one finding. -/
structure Entry where
  path : String
  message : String
  tag : String
  value : Option Value
  param : Option String

/-- The entry that an object stands for, if it does for one. -/
def Entry.read? (v : Value) : Option Entry := do
  let ms ← v.members?
  let text (name : String) : Option String := (Listing.get? name ms).bind Value.string?
  return {
    path := ← text "path"
    message := ← text "message"
    tag := ← text "tag"
    value := Listing.get? "value" ms
    param := ← (Listing.get? "param" ms).mapM Value.string? }

def readEntries? (v : Value) : Option (List Entry) := v.items?.bind (·.mapM Entry.read?)

/-- A value as findings carry it: null where none is shown, and as it is or frozen. -/
inductive Carries : Value → Option Value → Prop
  | nothing : Carries .null none
  | plain {v : Value} (durable : Json.Durable v) (shown : v ≠ .null) : Carries v (some v)
  | frozen {v : Value} (durable : Json.Durable v) (shown : v ≠ .null) : Carries v.freeze (some v)

/-- The member that shows a value, if one is shown. -/
def valueMember : Value → List (String × Value)
  | .null => []
  | v => [("value", v.thaw)]

theorem valueMember_of_ne_null {v : Value} (shown : v ≠ .null) :
    valueMember v = [("value", v.thaw)] := by
  cases v <;> first | rfl | exact absurd rfl shown

theorem Carries.valueMember {w : Value} {value : Option Value} (h : Carries w value) :
    valueMember w = value.elim [] fun v => [("value", v)] := by
  cases h with
  | nothing => rfl
  | plain durable shown => rw [valueMember_of_ne_null shown, durable.thaw_eq, Option.elim_some]
  | @frozen v durable shown =>
    have frozen : v.freeze ≠ .null := by
      cases v <;> simp_all [Value.freeze]
    rw [valueMember_of_ne_null frozen, Value.thaw_freeze, durable.thaw_eq, Option.elim_some]

/-- An entry has all that a finding has. -/
structure Entry.Describes (e : Entry) (f : Finding) : Prop where
  path : f.path.text = e.path
  message : f.message = e.message
  tag : f.tag = e.tag
  value : Carries f.value e.value
  param : f.param = e.param

/-- The members of an entry, what is absent left out. -/
def Entry.members (e : Entry) : List (String × Value) :=
  [("path", .string e.path), ("message", .string e.message), ("tag", .string e.tag)] ++
    (e.value.elim [] fun v => [("value", v)]) ++ e.param.elim [] fun p => [("param", .string p)]

theorem Entry.Describes.record_eq {e : Entry} {f : Finding} (h : e.Describes f) :
    record f = .object .mutable e.members := by
  have members : record f = .object .mutable ([("path", .string f.path.text),
      ("message", .string f.message), ("tag", .string f.tag)] ++ valueMember f.value ++
      f.param.elim [] fun p => [("param", .string p)]) := by
    rw [record]
    cases f.param <;> rfl
  rw [members, h.value.valueMember, h.path, h.message, h.tag, h.param]
  rfl

theorem Entry.read?_members (e : Entry) : read? (.object .mutable e.members) = some e := by
  obtain ⟨path, message, tag, _ | value, _ | param⟩ := e <;> rfl

theorem Carries.durable {w : Value} {value : Option Value} (h : Carries w value) :
    ∀ v ∈ value, Json.Durable v := by
  rintro v ⟨⟩
  cases h <;> assumption

theorem Entry.Describes.durable {e : Entry} {f : Finding} (h : e.Describes f) :
    Json.Durable (.object .mutable e.members) := by
  have carried := h.value.durable
  obtain ⟨path, message, tag, value, param⟩ := e
  have texts : ∀ m ∈ [("path", Value.string path), ("message", .string message),
      ("tag", .string tag)], Json.Durable m.2 := by
    simp only [List.forall_mem_cons]
    exact ⟨.string _, .string _, .string _, nofun⟩
  have shown : ∀ m ∈ value.elim [] fun v => [("value", v)], Json.Durable m.2 := by
    cases value with
    | none => nofun
    | some v => exact List.forall_mem_singleton.mpr (carried v rfl)
  have limit : ∀ m ∈ param.elim [] fun p => [("param", Value.string p)], Json.Durable m.2 := by
    cases param with
    | none => nofun
    | some p => exact List.forall_mem_singleton.mpr (.string p)
  refine .object ?_ (List.forall_mem_append.mpr ⟨List.forall_mem_append.mpr ⟨texts, shown⟩, limit⟩)
  cases value <;> cases param <;> simp [Entry.members, Listing.names]

theorem readEntries?_members (es : List Entry) :
    readEntries? (.list (es.map fun e => .object .mutable e.members)) = some es := by
  change (es.map _).mapM Entry.read? = some es
  induction es with
  | nil => rfl
  | cons e es ih => rw [List.map_cons, List.mapM_cons, Entry.read?_members, ih]; rfl

/-- The text of a report in JSON is parsed, and the findings are read back from it as they were, in
order and in every part; so are the values that they carry frozen. -/
theorem written_read_back {es : List Entry} {found : List Finding}
    (described : List.Forall₂ Entry.Describes es found) :
    ∃ w, Json.parse (write .json found) = .ok w ∧ readEntries? w = some es := by
  have records : found.map record = es.map fun e => .object .mutable e.members :=
    (map_eq_map_of_forall₂ described fun _ _ h => h.record_eq.symm).symm
  have durable : ∀ e ∈ es, Json.Durable (.object .mutable e.members) := by
    intro e he
    obtain ⟨f, -, h⟩ := exists_right_of_forall₂ described he
    exact h.durable
  refine ⟨.list (found.map record), Json.parse_render ?_, ?_⟩
  · rw [records]
    exact .array (List.forall_mem_map.mpr durable)
  · rw [records]
    exact readEntries?_members es

/-- The double nearest to a tenth. -/
def tenth : Binary64 := .ofDecimal false 1 (-1)

theorem parse_tenth : Json.parse (Json.doubleText tenth) = .ok (.number (.double tenth)) := by
  have text : Json.doubleText tenth = "0.1" := by decide +kernel
  rw [text]
  rfl

/-- A value that holds one of each kind, under names and in strings that need escapes. -/
def assorted : Value := .object .mutable [("café \"π\"", .list [.null, .number (.double tenth)]),
  ("\\", .object .mutable [("", .ofInt (-123456789012345678901234567890)), ("😀", .bool true)]),
  ("line", .string "\n\t😀")]

/-- A value that was frozen, and none, and a path of several steps. -/
theorem written_read_back_assorted :
    let es : List Entry := [⟨"$.café", "not one of \"π\"\n", "enum", some assorted, some "10"⟩,
      ⟨"$.items[3]", "field is required", "required", none, none⟩]
    let found : List Finding := [
      { path := .ofString "$.café", reason := .custom "not one of \"π\"\n", tag := "enum",
        value := assorted.freeze, param := some "10" },
      { path := ⟨"$", [.member "items", .element 3]⟩, reason := .fieldRequired, tag := "required" }]
    List.Forall₂ Entry.Describes es found ∧
      ∃ w, Json.parse (write .json found) = .ok w ∧ readEntries? w = some es := by
  intro es found
  have durable : Json.Durable assorted := by
    have items : Json.Durable (.list [.null, .number (.double tenth)]) :=
      .array (List.forall_mem_cons.mpr
        ⟨.null, List.forall_mem_singleton.mpr (.double _ parse_tenth)⟩)
    have inner : Json.Durable
        (.object .mutable [("", .ofInt (-123456789012345678901234567890)), ("😀", .bool true)]) :=
      .object (by decide) (List.forall_mem_cons.mpr
        ⟨.integer _, List.forall_mem_singleton.mpr (.bool true)⟩)
    exact .object (by decide) (List.forall_mem_cons.mpr ⟨items, List.forall_mem_cons.mpr
      ⟨inner, List.forall_mem_singleton.mpr (.string _)⟩⟩)
  have described : List.Forall₂ Entry.Describes es found :=
    .cons ⟨rfl, rfl, rfl, .frozen durable nofun, rfl⟩
      (.cons ⟨by decide, rfl, rfl, .nothing, rfl⟩ .nil)
  exact ⟨described, written_read_back described⟩

end Report

end Conform
