import Conform.Proofs.Rules.Meaning
import Conform.Proofs.Rules.Walk
import Conform.Proofs.Schema.Vocabulary

/-! The rule of listed values. A schema keeps a frozen copy of the list, and nothing that the rule
does tells it from the list: what it admits is equal to a value listed, and what it finds shows the
values as they were written. -/
namespace Conform.Rules

/-- A value is listed as its copy would be. -/
theorem listed_freeze (v : Value) : listed v.freeze = listed v := by
  cases v with
  | array | object => exact congrArg Json.render (Value.thaw_freeze _)
  | _ => rfl

theorem checkEnum_freeze (s : Subject) (v : Value) : checkEnum s v.freeze = checkEnum s v := by
  cases v with
  | array a xs =>
    have admitted : (xs.map Value.freeze).any (fun x => s.value.same x) =
        xs.any fun x => s.value.same x := any_same_freeze s.value xs
    have shown : (xs.map Value.freeze).map listed = xs.map listed := by
      rw [List.map_map]
      exact List.map_congr_left fun x _ => listed_freeze x
    unfold checkEnum
    rw [Value.freeze, Value.freezeItems_eq_map, Value.items?, Value.items?, Option.getD_some,
      Option.getD_some]
    dsimp only
    rw [admitted, shown]
  | _ => rfl

theorem checkEnum_eq_nil_iff_exists {s : Subject} {a : Access} {xs : List Value} :
    checkEnum s (.array a xs) = [] ↔ ∃ x ∈ xs, s.value.same x = true := by
  rw [← checkEnum_freeze, Value.freeze, Value.freezeItems_eq_map, checkEnum_eq_nil_iff,
    List.any_eq_true]

/-- A schema with a list of values and no other keyword. -/
def enumSchema (b a : Access) (xs : List Value) : Value := .object b [("enum", .array a xs)]

def enumNode (mode : Mode) (a : Access) (xs : List Value) : Node :=
  .mk mode [.mk "enum" (.plain (.freeze (.array a xs))) (some (.of .enum))] [] []

theorem compileSchema_enumSchema (mode : Mode) (b a : Access) (xs : List Value) :
    (compileSchema Rule.builtins mode (enumSchema b a xs)).result = .ok (enumNode mode a xs) := rfl

/-- An entry alone that finds one thing at most is never cut short. -/
theorem result_runEntries_alone {s : Subject} {e : Entry} {found : List Finding}
    (h : (runEntry s e).result = .ok found) (few : found.length ≤ 1) :
    (runEntries s [e]).result = .ok found := by
  have rest : (runEntries s []).result = .ok [] := rfl
  rw [result_runEntries_cons, h, rest]
  change (if _ then Except.ok (found.take 1) else .ok (found ++ [])) = _
  rw [List.take_of_length_le few, List.append_nil, ite_self]

theorem evaluate_enumNode (mode : Mode) (a : Access) (xs : List Value) (s : Subject) :
    (evaluate s (enumNode mode a xs)).result = .ok (checkEnum s (.array a xs)) := by
  rw [← checkEnum_freeze, evaluate_eq]
  refine result_runEntries_alone rfl ?_
  unfold checkEnum
  dsimp only
  split
  · exact Nat.zero_le 1
  · exact Nat.le_refl 1

/-- Freezing goes unseen. What is frozen stays the same when it is frozen again; thawed, it is the
copy of the value in containers that can change, with all elements and members in their order; and it
equals, and is equalled by, just what the value is. So every list of values compiles, the rule says
the same by the list as by its frozen copy, and it lets pass just what equals a value listed. -/
theorem freezing_unseen :
    (∀ v : Value, v.freeze.freeze = v.freeze ∧
      (∀ w, Value.Copied .mutable v w ↔ v.freeze.thaw = w) ∧
      ∀ w, v.freeze.same w = v.same w ∧ w.same v.freeze = w.same v) ∧
    ∀ (a : Access) (xs : List Value),
      (Compile.enumParam (.array a xs)).result = .ok (.freeze (.array a xs)) ∧
      (∀ s : Subject, checkEnum s (.freeze (.array a xs)) = checkEnum s (.array a xs) ∧
        (checkEnum s (.array a xs) = [] ↔ ∃ x ∈ xs, s.value.same x = true)) ∧
      ∀ (mode : Mode) (b : Access), ∃ n,
        (compileSchema Rule.builtins mode (enumSchema b a xs)).result = .ok n ∧
        ∀ s : Subject, (evaluate s n).result = .ok (checkEnum s (.array a xs)) := by
  refine ⟨fun v => ⟨Value.freeze_freeze v, fun w => ?_, fun w => ?_⟩, fun a xs => ⟨rfl, ?_, ?_⟩⟩
  · rw [Value.thaw_freeze]
    exact Value.copied_thaw_iff
  · have indistinct := Value.indistinct_freeze v
    exact ⟨indistinct.left w, indistinct.right w⟩
  · exact fun s => ⟨checkEnum_freeze s _, checkEnum_eq_nil_iff_exists⟩
  · exact fun mode b => ⟨_, compileSchema_enumSchema mode b a xs, evaluate_enumNode mode a xs⟩

end Conform.Rules
