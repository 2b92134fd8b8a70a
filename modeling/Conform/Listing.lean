/-!
Listings: values under distinct names, in order of first entry. Setting an existing name keeps its
place.
-/
namespace Conform

abbrev Listing (α : Type) := List (String × α)

namespace Listing

variable {α : Type}

def get? (name : String) : Listing α → Option α
  | [] => none
  | (n, a) :: l => if n = name then some a else get? name l

def put (name : String) (a : α) : Listing α → Listing α
  | [] => [(name, a)]
  | (n, b) :: l => if n = name then (n, a) :: l else (n, b) :: put name a l

def erase (name : String) (l : Listing α) : Listing α := l.filter (·.1 != name)

def names (l : Listing α) : List String := l.map (·.1)

def has (name : String) (l : Listing α) : Bool := (get? name l).isSome

/-- Names in order of their code points. -/
def sortedNames (l : Listing α) : List String := l.names.mergeSort fun a b => a ≤ b

attribute [local simp] get? put

theorem mem_of_get? {name : String} {a : α} {l : Listing α} (h : get? name l = some a) :
    (name, a) ∈ l := by
  induction l with
  | nil => cases h
  | cons e l ih =>
    obtain ⟨n, b⟩ := e
    by_cases same : n = name
    · simp_all [get?]
    · exact .tail _ (ih (by simpa [get?, same] using h))

theorem get?_eq_none_iff {name : String} {l : Listing α} : get? name l = none ↔ name ∉ l.names := by
  induction l with
  | nil => simp [get?, names]
  | cons e l ih =>
    obtain ⟨n, b⟩ := e
    by_cases same : n = name
    · simp [get?, names, same]
    · simpa [get?, names, same, Ne.symm same] using ih

theorem has_eq_false_iff {name : String} {l : Listing α} : l.has name = false ↔ name ∉ l.names := by
  rw [← get?_eq_none_iff, has]
  cases get? name l <;> simp

theorem names_append {l k : Listing α} : names (l ++ k) = l.names ++ k.names := List.map_append

/-- Where names are distinct, every entry is found. -/
theorem get?_of_mem {name : String} {a : α} {l : Listing α} (distinct : l.names.Nodup)
    (h : (name, a) ∈ l) : get? name l = some a := by
  induction l with
  | nil => cases h
  | cons e l ih =>
    obtain ⟨n, b⟩ := e
    rw [names, List.map_cons, List.nodup_cons] at distinct
    rcases List.mem_cons.mp h with same | h
    · cases same
      simp [get?]
    · have other : n ≠ name := fun same =>
        distinct.1 (List.mem_map.mpr ⟨_, h, same.symm⟩)
      simpa [get?, other] using ih distinct.2 h

/-- Where names are distinct, their order does not matter. -/
theorem get?_perm {l k : Listing α} (distinct : l.names.Nodup) (h : l.Perm k) (name : String) :
    get? name l = get? name k := by
  have names : l.names.Perm k.names := h.map Prod.fst
  symm
  cases hv : get? name l with
  | none =>
    rw [get?_eq_none_iff] at hv ⊢
    exact fun mem => hv (names.mem_iff.mpr mem)
  | some a => exact get?_of_mem (names.nodup distinct) (h.mem_iff.mp (mem_of_get? hv))

theorem get?_map {β : Type} (f : α → β) (name : String) (l : Listing α) :
    get? name (l.map fun e => (e.1, f e.2)) = (get? name l).map f := by
  induction l with
  | nil => rfl
  | cons e l ih => by_cases same : e.1 = name <;> simp [get?, same, ih]

@[simp] theorem get?_put_self (name : String) (a : α) (l : Listing α) :
    get? name (put name a l) = some a := by
  induction l with
  | nil => simp [put, get?]
  | cons e l ih =>
    obtain ⟨n, b⟩ := e
    by_cases h : n = name <;> simp [put, get?, h, ih]

theorem get?_put_of_ne {name other : String} (h : other ≠ name) (a : α) (l : Listing α) :
    get? other (put name a l) = get? other l := by
  induction l with
  | nil => simp [put, get?, Ne.symm h]
  | cons e l ih =>
    obtain ⟨n, b⟩ := e
    by_cases hn : n = name
    · subst hn; simp [put, get?, Ne.symm h]
    · by_cases ho : n = other
      · subst ho; simp [put, get?, hn]
      · simp [put, get?, hn, ho, ih]

theorem mem_put {name : String} {a : α} {l : Listing α} {e : String × α}
    (h : e ∈ put name a l) : e = (name, a) ∨ e ∈ l := by
  induction l with
  | nil => exact .inl (List.mem_singleton.mp h)
  | cons f l ih =>
    obtain ⟨n, b⟩ := f
    rw [put] at h
    split at h
    · next same =>
      subst same
      exact (List.mem_cons.mp h).imp_right (.tail _)
    · rcases List.mem_cons.mp h with rfl | h
      · exact .inr (.head _)
      · exact (ih h).imp_right (.tail _)

@[simp] theorem get?_erase_self (name : String) (l : Listing α) :
    get? name (erase name l) = none := by
  induction l with
  | nil => rfl
  | cons e l ih =>
    obtain ⟨n, b⟩ := e
    by_cases h : n = name <;> simp_all [erase, get?]

theorem get?_erase_of_ne {name other : String} (h : other ≠ name) (l : Listing α) :
    get? other (erase name l) = get? other l := by
  induction l with
  | nil => rfl
  | cons e l ih =>
    obtain ⟨n, b⟩ := e
    by_cases hn : n = name
    · subst hn
      simpa [erase, get?, Ne.symm h] using ih
    · by_cases ho : n = other <;> simp_all [erase, get?]

theorem names_put_of_has {name : String} {l : Listing α} (a : α) (h : l.has name = true) :
    names (put name a l) = l.names := by
  induction l with
  | nil => simp [has, get?] at h
  | cons e l ih =>
    obtain ⟨n, b⟩ := e
    by_cases hn : n = name
    · simp [put, names, hn]
    · simp only [has, get?, hn, if_false] at h
      simpa [put, names, hn] using ih h

theorem put_of_not_has {name : String} {l : Listing α} (a : α) (h : l.has name = false) :
    put name a l = l ++ [(name, a)] := by
  induction l with
  | nil => rfl
  | cons e l ih =>
    obtain ⟨n, b⟩ := e
    by_cases hn : n = name
    · simp [has, get?, hn] at h
    · simp only [has, get?, hn, if_false] at h
      simpa [put, hn] using ih h

theorem names_put_of_not_has {name : String} {l : Listing α} (a : α) (h : l.has name = false) :
    names (put name a l) = l.names ++ [name] := by
  rw [put_of_not_has a h, names, List.map_append]
  rfl

end Listing

end Conform
