import Mathlib.Data.List.Nodup
import Conform.Tag

/-! What directives become. A bound of the value's kind may be written out, or asked for by `min` or
`max`; whichever comes first, the one that is written out holds. -/
namespace Conform

namespace Listing

variable {α : Type} {l k : Listing α}

theorem nodup_names_put (name : String) (a : α) (distinct : l.names.Nodup) :
    (put name a l).names.Nodup := by
  cases taken : l.has name with
  | true => rwa [names_put_of_has a taken]
  | false =>
    have fresh : name ∉ l.names := by
      rw [← get?_eq_none_iff]
      simpa [has] using taken
    rw [names_put_of_not_has a taken, ← List.concat_eq_append]
    exact distinct.concat fresh

/-- Listings of distinct names are the same but for their order if they hold the same under every
name. -/
theorem perm_of_get?_eq (distinct : l.names.Nodup) (distinct' : k.names.Nodup)
    (same : ∀ name, get? name l = get? name k) : l.Perm k := by
  refine (List.perm_ext_iff_of_nodup (.of_map _ distinct) (.of_map _ distinct')).mpr ?_
  rintro ⟨name, a⟩
  constructor
  · exact fun mem => mem_of_get? (same name ▸ get?_of_mem distinct mem)
  · exact fun mem => mem_of_get? ((same name).trans (get?_of_mem distinct' mem))

end Listing

namespace Tag

variable {v : Value} {ds : Listing Value} {key : String}

/-- The keys that are no keywords: one is asked elsewhere, two stand for bounds. -/
def shorthands : List String := [requiredKey, "min", "max"]

/-- The directive that stands for a keyword, if it is a bound of the value's kind. -/
def shorthandOf? (v : Value) (key : String) : Option String :=
  if key = (boundsFor v).1 then some "min"
  else if key = (boundsFor v).2 then some "max"
  else none

theorem boundsFor_apart (v : Value) : (boundsFor v).1 ≠ (boundsFor v).2 ∧
    (boundsFor v).1 ∉ shorthands ∧ (boundsFor v).2 ∉ shorthands := by
  cases v <;> simp only [boundsFor] <;> decide

theorem shorthandOf?_eq_some_iff {name : String} : shorthandOf? v key = some name ↔
    key = (boundsFor v).1 ∧ name = "min" ∨ key = (boundsFor v).2 ∧ name = "max" := by
  have apart := (boundsFor_apart v).1
  unfold shorthandOf?
  split
  · next lower => simp [lower, apart, eq_comm]
  · next other => simp [other, eq_comm]

theorem get?_putIfAbsent (name key : String) (a : Value) (l : Listing Value) :
    (putIfAbsent name a l).get? key = (l.get? key).or (if key = name then some a else none) := by
  unfold putIfAbsent
  by_cases same : key = name
  · subst same
    cases found : l.get? key <;> simp [Listing.has, found]
  · cases l.has name <;> simp [same, Listing.get?_put_of_ne same]

/-- One directive is found under its own key, and under the bound that it stands for unless
something is there. -/
theorem get?_addDirective (v : Value) (key : String) (schema : Listing Value) (d : String × Value) :
    (addDirective v schema d).get? key =
      if d.1 = key ∧ key ∉ shorthands then some d.2
      else (schema.get? key).or (if shorthandOf? v key = some d.1 then some d.2 else none) := by
  obtain ⟨name, a⟩ := d
  obtain ⟨apart, -, -⟩ := boundsFor_apart v
  simp only [shorthandOf?_eq_some_iff]
  by_cases special : name ∈ shorthands
  · have other : ¬ (name = key ∧ key ∉ shorthands) := fun h => h.2 (h.1 ▸ special)
    rw [if_neg other]
    simp only [shorthands, List.mem_cons, List.not_mem_nil, or_false] at special
    rcases special with rfl | rfl | rfl
    · simp [addDirective, requiredKey]
    · simp [addDirective, requiredKey, get?_putIfAbsent]
    · simp [addDirective, requiredKey, get?_putIfAbsent]
  · have entered : addDirective v schema (name, a) = schema.put name a := by
      simp only [shorthands, List.mem_cons, List.not_mem_nil, or_false, not_or] at special
      simp [addDirective, special]
    have stands : name ≠ "min" ∧ name ≠ "max" := by
      simp only [shorthands, List.mem_cons, List.not_mem_nil, or_false, not_or] at special
      exact special.2
    rw [entered]
    by_cases same : name = key
    · subst same
      simp [special]
    · simp [same, stands, Listing.get?_put_of_ne (Ne.symm same)]

/-- What is written out later replaces what is there; what is there stays before what only stands
for it. -/
theorem get?_foldl_addDirective (distinct : ds.names.Nodup) (v : Value) (key : String)
    (schema : Listing Value) : (ds.foldl (addDirective v) schema).get? key =
      (if key ∈ shorthands then none else ds.get? key).or
        ((schema.get? key).or ((shorthandOf? v key).bind fun name => ds.get? name)) := by
  induction ds generalizing schema with
  | nil => cases shorthandOf? v key <;> simp [Listing.get?]
  | cons d ds ih =>
    obtain ⟨name, a⟩ := d
    rw [Listing.names, List.map_cons, List.nodup_cons] at distinct
    have once : Listing.get? name ds = none := Listing.get?_eq_none_iff.mpr distinct.1
    have stands : ((shorthandOf? v key).bind fun other => Listing.get? other ((name, a) :: ds)) =
        (if shorthandOf? v key = some name then some a else none).or
          ((shorthandOf? v key).bind fun other => Listing.get? other ds) := by
      cases shorthandOf? v key with
      | none => rfl
      | some other =>
        by_cases same : name = other
        · subst same
          simp [Listing.get?]
        · simp [Listing.get?, same, Ne.symm same]
    rw [List.foldl_cons, ih distinct.2, get?_addDirective, stands]
    by_cases same : name = key
    · subst same
      by_cases special : name ∈ shorthands
      · simp [special, Option.or_assoc]
      · simp [special, once, Listing.get?]
    · simp [same, Listing.get?, Option.or_assoc]

/-- Under every name a schema holds the directive of that name, or the one that stands for it. -/
theorem get?_toSchema (distinct : ds.names.Nodup) (v : Value) (key : String) :
    (toSchema ds v).get? key = (if key ∈ shorthands then none else ds.get? key).or
      ((shorthandOf? v key).bind fun name => ds.get? name) :=
  get?_foldl_addDirective distinct v key []

theorem nodup_names_toSchema (ds : Listing Value) (v : Value) : (toSchema ds v).names.Nodup := by
  unfold toSchema
  refine List.foldlRecOn (motive := fun schema => (Listing.names schema).Nodup) ds
    (addDirective v) List.nodup_nil fun schema distinct d _ => ?_
  have ifAbsent (name : String) : (putIfAbsent name d.2 schema).names.Nodup := by
    unfold putIfAbsent
    split
    · exact distinct
    · exact Listing.nodup_names_put name d.2 distinct
  unfold addDirective
  split
  · exact distinct
  · split
    · exact ifAbsent _
    · split
      · exact ifAbsent _
      · exact Listing.nodup_names_put d.1 d.2 distinct

/-- In whatever order directives come, they make one schema. Each of the two bounds for the kind of
the value is the directive of its name, or else `min` or `max`; all others are taken as they are,
but not `required`, `min` and `max` themselves, and nothing is added. -/
theorem toSchema_of_perm {ds' : Listing Value} (distinct : ds.names.Nodup) (perm : ds.Perm ds')
    (v : Value) :
    (toSchema ds v).Perm (toSchema ds' v) ∧ (toSchema ds v).names.Nodup ∧
    (toSchema ds v).get? (boundsFor v).1 = (ds.get? (boundsFor v).1).or (ds.get? "min") ∧
    (toSchema ds v).get? (boundsFor v).2 = (ds.get? (boundsFor v).2).or (ds.get? "max") ∧
    (∀ key, key ≠ (boundsFor v).1 → key ≠ (boundsFor v).2 → key ∉ ["required", "min", "max"] →
      (toSchema ds v).get? key = ds.get? key) ∧
    ∀ key ∈ ["required", "min", "max"], (toSchema ds v).get? key = none := by
  obtain ⟨apart, lower, upper⟩ := boundsFor_apart v
  have distinct' : ds'.names.Nodup := (perm.map Prod.fst).nodup distinct
  have none_of (key : String) (first : key ≠ (boundsFor v).1) (second : key ≠ (boundsFor v).2) :
      shorthandOf? v key = none := by
    rw [shorthandOf?, if_neg first, if_neg second]
  refine ⟨?_, nodup_names_toSchema ds v, ?_, ?_, ?_, ?_⟩
  · refine Listing.perm_of_get?_eq (nodup_names_toSchema ds v) (nodup_names_toSchema ds' v) ?_
    intro key
    rw [get?_toSchema distinct, get?_toSchema distinct', Listing.get?_perm distinct perm]
    simp only [Listing.get?_perm distinct perm]
  · rw [get?_toSchema distinct, if_neg lower, shorthandOf?, if_pos rfl]
    rfl
  · rw [get?_toSchema distinct, if_neg upper, shorthandOf?, if_neg apart.symm, if_pos rfl]
    rfl
  · intro key first second other
    change key ∉ shorthands at other
    rw [get?_toSchema distinct, if_neg other, none_of key first second]
    exact Option.or_none
  · intro key special
    change key ∈ shorthands at special
    have first : key ≠ (boundsFor v).1 := fun same => lower (same ▸ special)
    have second : key ≠ (boundsFor v).2 := fun same => upper (same ▸ special)
    rw [get?_toSchema distinct, if_pos special, none_of key first second]
    rfl

/-- A bound for texts beside `min`, which comes first or last, and a bound for numbers. -/
theorem toSchema_of_perm_text :
    let ds : Listing Value := [("min", .ofInt 1), ("required", .bool true), ("minLength", .ofInt 4),
      ("max", .ofInt 9), ("minimum", .ofInt 7)]
    let v : Value := .string "tag"
    ds.names.Nodup ∧ ds.Perm ds.reverse ∧ (toSchema ds v).Perm (toSchema ds.reverse v) ∧
    toSchema ds v = [("minLength", .ofInt 4), ("maxLength", .ofInt 9), ("minimum", .ofInt 7)] ∧
    toSchema ds.reverse v =
      [("minimum", .ofInt 7), ("maxLength", .ofInt 9), ("minLength", .ofInt 4)] ∧
    (toSchema ds v).get? "minLength" = some (.ofInt 4) ∧
    (toSchema ds v).get? "maxLength" = some (.ofInt 9) ∧
    (toSchema ds v).get? "minimum" = some (.ofInt 7) ∧ (toSchema ds v).get? "min" = none := by
  intro ds v
  have distinct : ds.names.Nodup := by decide
  have perm : ds.Perm ds.reverse := ds.reverse_perm.symm
  obtain ⟨same, -, lower, upper, others, dropped⟩ := toSchema_of_perm distinct perm v
  exact ⟨distinct, perm, same, rfl, rfl, lower, upper,
    others "minimum" (by decide) (by decide) (by decide), dropped "min" (by decide)⟩

end Tag

end Conform
