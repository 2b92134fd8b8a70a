import Conform.Proofs.Value.Json
import Conform.Value.Freeze

/-! Copies of values. Freezing and thawing copy a value: every container in it, at any depth, becomes
one that cannot change, or one that can, and all else stays as and where it is. Equality of JSON
values does not tell a copy from what was copied. -/
namespace Conform.Value

/-- Induction over values: a property of a container may be had for all that stands in it. -/
theorem induction {motive : Value → Prop}
    (array : ∀ a xs, (∀ x ∈ xs, motive x) → motive (.array a xs))
    (object : ∀ a ms, (∀ m ∈ ms, motive m.2) → motive (.object a ms))
    (other : ∀ v : Value, v.items? = none → v.members? = none → motive v) (v : Value) :
    motive v := by
  refine @Value.rec motive (fun _ => True) (fun xs => ∀ x ∈ xs, motive x)
    (fun ms => ∀ m ∈ ms, motive m.2) (fun _ => True) (fun m => motive m.2)
    ?null ?bool ?number ?string ?bytes array ?set object ?foreign ?record ?field
    ?noItem ?items ?noMember ?members ?noField ?fields ?member v
  case items | members => exact fun _ _ first rest => List.forall_mem_cons.mpr ⟨first, rest⟩
  case noItem | noMember => exact List.forall_mem_nil _
  case member => exact fun _ _ ih => ih
  case field | noField | fields => intros; trivial
  all_goals intros; exact other _ rfl rfl

/-- The second value is a copy of the first: all containers have one access, the copies of elements
and members stand in the order of the originals, members under their names, and nothing else is
changed. -/
inductive Copied (access : Access) : Value → Value → Prop
  | array {a : Access} {xs ys : List Value} (items : List.Forall₂ (Copied access) xs ys) :
    Copied access (.array a xs) (.array access ys)
  | object {a : Access} {ms ns : List (String × Value)}
    (members : List.Forall₂ (Named (Copied access)) ms ns) :
    Copied access (.object a ms) (.object access ns)
  | other {v : Value} (items : v.items? = none) (members : v.members? = none) : Copied access v v

variable {access next : Access} {u v w : Value}

/-- A function that copies containers and keeps all else gives the one copy there is. -/
theorem copied_iff_eq {f : Value → Value}
    (array : ∀ a xs, f (.array a xs) = .array access (xs.map f))
    (object : ∀ a ms, f (.object a ms) = .object access (ms.map fun m => (m.1, f m.2)))
    (other : ∀ v : Value, v.items? = none → v.members? = none → f v = v) (v w : Value) :
    Copied access v w ↔ f v = w := by
  induction v using Value.induction generalizing w with
  | array a xs ih =>
    rw [array]
    constructor
    · intro copied
      cases copied with
      | array items =>
        have same := forall₂_imp_of_mem items fun x hx y _ => (ih x hx y).mp
        rw [← List.forall₂_map_left_iff (R := Eq), List.forall₂_eq_eq_eq] at same
        rw [same]
      | other none _ => cases none
    · rintro rfl
      refine .array (List.forall₂_map_right_iff.mpr (List.forall₂_same.mpr fun x hx => ?_))
      exact (ih x hx _).mpr rfl
  | object a ms ih =>
    rw [object]
    constructor
    · intro copied
      cases copied with
      | object members =>
        have same : List.Forall₂ (fun m n => (m.1, f m.2) = n) ms _ :=
          forall₂_imp_of_mem members fun m hm n _ named => by
            obtain ⟨name, copied⟩ := Named.iff.mp named
            exact Prod.ext name ((ih m hm _).mp copied)
        rw [← List.forall₂_map_left_iff (R := Eq), List.forall₂_eq_eq_eq] at same
        rw [same]
      | other _ none => cases none
    · rintro rfl
      refine .object (List.forall₂_map_right_iff.mpr (List.forall₂_same.mpr fun m hm => ?_))
      exact .intro m.1 ((ih m hm _).mpr rfl)
  | other v items members =>
    rw [other v items members]
    constructor
    · intro copied
      cases copied with
      | array => cases items
      | object => cases members
      | other => rfl
    · rintro rfl
      exact .other items members

theorem copied_freeze_iff : Copied .frozen v w ↔ v.freeze = w :=
  copied_iff_eq (fun a xs => by rw [freeze, freezeItems_eq_map])
    (fun a ms => by rw [freeze, freezeMembers_eq_map])
    (fun v items members => by
      cases v with
      | array => cases items
      | object => cases members
      | _ => rfl) v w

theorem copied_thaw_iff : Copied .mutable v w ↔ v.thaw = w :=
  copied_iff_eq (fun a xs => by rw [thaw, thawItems_eq_map])
    (fun a ms => by rw [thaw, thawMembers_eq_map])
    (fun v items members => by
      cases v with
      | array => cases items
      | object => cases members
      | _ => rfl) v w

namespace Copied

/-- A copy of a copy is one of the original. -/
theorem trans (h : Copied access u v) (h' : Copied next v w) : Copied next u w := by
  induction u using Value.induction generalizing v w with
  | array a xs ih =>
    cases h with
    | array items =>
      cases h' with
      | array items' => exact .array (forall₂_trans_of_mem items items' fun x hx y z => ih x hx)
      | other none _ => cases none
    | other none _ => cases none
  | object a ms ih =>
    cases h with
    | object members =>
      cases h' with
      | object members' =>
        refine .object (forall₂_trans_of_mem members members' ?_)
        rintro m hm n o first second
        obtain ⟨name, copied⟩ := Named.iff.mp first
        obtain ⟨name', copied'⟩ := Named.iff.mp second
        exact Named.iff.mpr ⟨name.trans name', ih m hm copied copied'⟩
      | other _ none => cases none
    | other _ none => cases none
  | other u items members =>
    cases h with
    | array => cases items
    | object => cases members
    | other => exact h'

end Copied

/-- What is frozen is its own frozen copy. -/
theorem freeze_freeze (v : Value) : v.freeze.freeze = v.freeze := by
  have once : Copied .frozen v v.freeze := copied_freeze_iff.mpr rfl
  have twice : Copied .frozen v v.freeze.freeze := once.trans (copied_freeze_iff.mpr rfl)
  exact (copied_freeze_iff.mp twice).symm

theorem rel_get?_of_forall₂ {R : Value → Value → Prop} {ms ns : List (String × Value)}
    (h : List.Forall₂ (Named R) ms ns) (name : String) :
    Option.Rel R (Listing.get? name ms) (Listing.get? name ns) := by
  induction h with
  | nil => exact .none
  | cons first _ ih =>
    obtain ⟨here, related⟩ := first
    unfold Listing.get?
    split
    · exact .some related
    · exact ih

/-- Two values that equality does not tell apart, whichever side they are on. -/
structure Indistinct (v w : Value) : Prop where
  left : ∀ u : Value, w.same u = v.same u
  right : ∀ u : Value, u.same w = u.same v

namespace Indistinct

variable {xs ys : List Value} {ms ns : List (String × Value)}

theorem array (h : List.Forall₂ Indistinct xs ys) (a b : Access) :
    Indistinct (.array a xs) (.array b ys) := by
  have both (us : List Value) :
      sameItems ys us = sameItems xs us ∧ sameItems us ys = sameItems us xs := by
    induction h generalizing us with
    | nil => exact ⟨rfl, rfl⟩
    | cons first _ ih =>
      cases us with
      | nil => exact ⟨rfl, rfl⟩
      | cons u us =>
        obtain ⟨left, right⟩ := ih us
        rw [sameItems, sameItems, sameItems, sameItems, first.left, first.right, left, right]
        exact ⟨rfl, rfl⟩
  constructor
  · intro u
    cases u <;> simp only [same, both]
  · intro u
    cases u <;> simp only [same, both]

theorem object (h : List.Forall₂ (Named Indistinct) ms ns) (a b : Access) :
    Indistinct (.object a ms) (.object b ns) := by
  have left (us : List (String × Value)) : sameMembers ns us = sameMembers ms us := by
    induction h with
    | nil => rfl
    | cons first _ ih =>
      obtain ⟨name, related⟩ := first
      rw [sameMembers, sameMembers, ih]
      cases Listing.get? name us <;> simp only [related.left]
  have right (us : List (String × Value)) : sameMembers us ns = sameMembers us ms := by
    induction us with
    | nil => rfl
    | cons u us ih =>
      have lookup := rel_get?_of_forall₂ h u.1
      rw [sameMembers, sameMembers, ih]
      generalize Listing.get? u.1 ms = v, Listing.get? u.1 ns = w at lookup
      cases lookup with
      | none => rfl
      | some related => simp only [related.right]
  constructor
  · intro u
    cases u <;> simp only [same, left, h.length_eq]
  · intro u
    cases u <;> simp only [same, right, h.length_eq]

end Indistinct

/-- A copy equals what the original equals, and is equalled by what equals the original. -/
theorem Copied.indistinct (h : Copied access v w) : Indistinct v w := by
  induction v using Value.induction generalizing w with
  | array a xs ih =>
    cases h with
    | array items => exact .array (forall₂_imp_of_mem items fun x hx y _ => ih x hx) a access
    | other none _ => cases none
  | object a ms ih =>
    cases h with
    | object members =>
      refine .object (forall₂_imp_of_mem members fun m hm n _ named => ?_) a access
      obtain ⟨name, copied⟩ := Named.iff.mp named
      exact Named.iff.mpr ⟨name, ih m hm copied⟩
    | other _ none => cases none
  | other v items members =>
    cases h with
    | array => cases items
    | object => cases members
    | other => exact ⟨fun _ => rfl, fun _ => rfl⟩

theorem indistinct_freeze (v : Value) : Indistinct v v.freeze :=
  (copied_freeze_iff.mpr rfl).indistinct

end Conform.Value
