import Mathlib.Data.Rat.Defs
import Conform.Proofs.Value.Json
import Conform.Value.JsonType

/-! Values as JSON Schema draft-07 sees them: their equality and their types, each as a relation,
beside the checks that decide them. -/
namespace Conform.Draft7

/-- Equality of JSON values. Numbers are equal where they stand for the same, whatever they are
written as, and objects where they have equal members under the same names, in any order. -/
inductive Equal : Value → Value → Prop
  | null : Equal .null .null
  | bool (b : Bool) : Equal (.bool b) (.bool b)
  | number {m n : Number} (value : m.value = n.value) : Equal (.number m) (.number n)
  | string (s : String) : Equal (.string s) (.string s)
  | array {a b : Access} {xs ys : List Value} (length : xs.length = ys.length)
    (items : ∀ x y, (x, y) ∈ xs.zip ys → Equal x y) : Equal (.array a xs) (.array b ys)
  | object {a b : Access} {ms ns : List (String × Value)}
    (names : ∀ name, name ∈ Listing.names ms ↔ name ∈ Listing.names ns)
    (members : ∀ name v w, Listing.get? name ms = some v → Listing.get? name ns = some w →
      Equal v w) : Equal (.object a ms) (.object b ns)

/-- The types that a value is of. A whole number is an integer in any writing. -/
inductive HasType : Value → JsonType → Prop
  | null : HasType .null .null
  | boolean {b : Bool} : HasType (.bool b) .boolean
  | number {n : Number} : HasType (.number n) .number
  | integer {n : Number} (i : Int) (whole : n.value = .finite i) : HasType (.number n) .integer
  | string {s : String} : HasType (.string s) .string
  | array {a : Access} {xs : List Value} : HasType (.array a xs) .array
  | object {a : Access} {ms : List (String × Value)} : HasType (.object a ms) .object

theorem ofName?_name (t : JsonType) : JsonType.ofName? t.name = some t := by
  cases t <;> rfl

theorem name_injective : Function.Injective JsonType.name := by
  intro s t h
  have found := congrArg JsonType.ofName? h
  rw [ofName?_name, ofName?_name] at found
  exact Option.some.inj found

theorem equal_iff_value_eq {m n : Number} (real : m.isNaN = false) :
    m.equal n = true ↔ m.value = n.value := by
  have finite := Number.value_ne_nan real
  unfold Number.equal
  generalize m.value = x, n.value = y at finite
  cases x <;> cases y <;> simp_all [Extended.equal]

theorem length_eq_of_names_iff {ms ns : List (String × Value)}
    (distinct : (Listing.names ms).Nodup) (distinct' : (Listing.names ns).Nodup)
    (names : ∀ name, name ∈ Listing.names ms ↔ name ∈ Listing.names ns) :
    ms.length = ns.length := by
  have perm := (List.perm_ext_iff_of_nodup distinct distinct').mpr names
  simpa [Listing.names] using perm.length_eq

theorem same_iff_equal {x y : Value} (hx : x.Json) (hy : y.Json) :
    x.same y = true ↔ Equal x y := by
  induction hx generalizing y with
  | null | bool | string =>
    constructor
    · intro h
      cases y <;> simp only [Value.same, Bool.false_eq_true, beq_iff_eq] at h
      all_goals
        subst_vars
        constructor
    · intro h
      cases h
      simp [Value.same]
  | number real =>
    constructor
    · intro h
      cases y <;> simp only [Value.same, Bool.false_eq_true] at h
      exact .number ((equal_iff_value_eq real).mp h)
    · intro h
      cases h with
      | number value => exact (equal_iff_value_eq real).mpr value
  | @array a xs _ ih =>
    constructor
    · intro h
      cases y <;> simp only [Value.same, Bool.false_eq_true, Value.sameItems_iff] at h
      case array b ys =>
        refine .array h.length_eq fun x y hxy => ?_
        have mem := List.of_mem_zip hxy
        exact (ih x mem.1 (hy.of_mem_items mem.2)).mp (List.forall₂_zip h hxy)
    · intro h
      cases h with
      | array length items =>
        rw [Value.same, Value.sameItems_iff, List.forall₂_iff_zip]
        refine ⟨length, fun {x y} hxy => ?_⟩
        have mem := List.of_mem_zip hxy
        exact (ih x mem.1 (hy.of_mem_items mem.2)).mpr (items x y hxy)
  | @object a ms distinct _ ih =>
    constructor
    · intro h
      cases y <;> simp only [Value.same, Bool.false_eq_true, Bool.and_eq_true, beq_iff_eq,
        Value.sameMembers_iff] at h
      case object b ns =>
        obtain ⟨length, found⟩ := h
        have members : Rearranged (Named fun v w => v.same w = true) ms ns :=
          Value.rearranged_of_found distinct length found
        refine .object (fun name => members.names_perm.mem_iff) ?_
        intro name v w hv hw
        have hm := Listing.mem_of_get? hv
        obtain ⟨w', hw', same⟩ := found _ hm
        obtain rfl := Option.some.inj (hw.symm.trans hw')
        exact (ih _ hm (hy.of_get? hw)).mp same
    · intro h
      cases h with
      | @object _ b _ ns names members =>
        have distinct' : (Listing.names ns).Nodup := by
          cases hy with
          | object distinct' _ => exact distinct'
        rw [Value.same, Bool.and_eq_true, beq_iff_eq, Value.sameMembers_iff]
        refine ⟨length_eq_of_names_iff distinct distinct' names, fun m hm => ?_⟩
        obtain ⟨n, hn, name⟩ := List.mem_map.mp ((names m.1).mp (List.mem_map_of_mem hm))
        have find : Listing.get? m.1 ns = some n.2 := Listing.get?_of_mem distinct' (name ▸ hn)
        have own : Listing.get? m.1 ms = some m.2 := Listing.get?_of_mem distinct hm
        exact ⟨n.2, find, (ih m hm (hy.of_get? find)).mpr (members m.1 m.2 n.2 own find)⟩

end Conform.Draft7
