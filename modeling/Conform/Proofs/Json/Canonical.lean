import Conform.Json.Writer
import Conform.Listing
import Conform.Proofs.Pointwise
import Mathlib.Data.List.Nodup

/-! Canonical text: it does not show in which order the members of an object stand. -/
namespace Conform.Json

theorem canonicalMembers?_cons_eq_some_iff {name : String} {v : Value}
    {ms : List (String × Value)} {ts : List (String × String)} :
    canonicalMembers? ((name, v) :: ms) = some ts ↔
      ∃ t rest, canonical? v = some t ∧ canonicalMembers? ms = some rest ∧
        ts = (name, t) :: rest := by
  simp only [canonicalMembers?, Option.bind_eq_bind, Option.bind_eq_some_iff, Option.pure_def,
    Option.some.injEq]
  constructor
  · rintro ⟨t, ht, rest, hrest, rfl⟩
    exact ⟨t, rest, ht, hrest, rfl⟩
  · rintro ⟨t, rest, ht, hrest, rfl⟩
    exact ⟨t, ht, rest, hrest, rfl⟩

theorem names_of_canonicalMembers? {ms : List (String × Value)} {ts : List (String × String)}
    (h : canonicalMembers? ms = some ts) : Listing.names ts = Listing.names ms := by
  induction ms generalizing ts with
  | nil =>
    cases h
    rfl
  | cons m ms ih =>
    obtain ⟨t, rest, -, hrest, rfl⟩ := canonicalMembers?_cons_eq_some_iff.mp h
    exact congrArg (m.1 :: ·) (ih hrest)

theorem canonicalMembers?_perm {ms ks : List (String × Value)} (h : ms.Perm ks)
    {ts : List (String × String)} (written : canonicalMembers? ms = some ts) :
    ∃ us, canonicalMembers? ks = some us ∧ ts.Perm us := by
  induction h generalizing ts with
  | nil => exact ⟨ts, written, .refl ts⟩
  | cons m _ ih =>
    obtain ⟨t, rest, ht, hrest, rfl⟩ := canonicalMembers?_cons_eq_some_iff.mp written
    obtain ⟨us, hus, perm⟩ := ih hrest
    exact ⟨_, canonicalMembers?_cons_eq_some_iff.mpr ⟨t, us, ht, hus, rfl⟩, perm.cons _⟩
  | swap m k ms =>
    obtain ⟨t, _, ht, after, rfl⟩ := canonicalMembers?_cons_eq_some_iff.mp written
    obtain ⟨u, rest, hu, hrest, rfl⟩ := canonicalMembers?_cons_eq_some_iff.mp after
    have back : canonicalMembers? (k :: ms) = some ((k.1, t) :: rest) :=
      canonicalMembers?_cons_eq_some_iff.mpr ⟨t, rest, ht, hrest, rfl⟩
    exact ⟨_, canonicalMembers?_cons_eq_some_iff.mpr ⟨u, _, hu, back, rfl⟩, .swap _ _ _⟩
  | trans _ _ ih ih' =>
    obtain ⟨us, hus, perm⟩ := ih written
    obtain ⟨vs, hvs, perm'⟩ := ih' hus
    exact ⟨vs, hvs, perm.trans perm'⟩

theorem pairwise_sortByName (ts : List (String × String)) :
    (sortByName ts).Pairwise fun a b => decide (a.1 ≤ b.1) = true :=
  List.pairwise_mergeSort (fun a b c => by simpa using String.le_trans)
    (fun a b => by simpa using String.le_total a.1 b.1) ts

/-- Where names are distinct, the order before a sort does not matter. -/
theorem sortByName_perm {ts us : List (String × String)} (h : ts.Perm us)
    (distinct : (Listing.names ts).Nodup) : sortByName ts = sortByName us := by
  have hts : (sortByName ts).Perm ts := List.mergeSort_perm ts _
  have hus : (sortByName us).Perm us := List.mergeSort_perm us _
  refine List.Perm.eq_of_pairwise ?_ (pairwise_sortByName ts) (pairwise_sortByName us)
    (hts.trans (h.trans hus.symm))
  intro a b ha hb hab hba
  have same : a.1 = b.1 := String.le_antisymm (of_decide_eq_true hab) (of_decide_eq_true hba)
  have ma : a ∈ ts := hts.mem_iff.mp ha
  have mb : b ∈ ts := h.mem_iff.mpr (hus.mem_iff.mp hb)
  exact List.inj_on_of_nodup_map distinct ma mb same

theorem canonical?_perm {ms ks : List (String × Value)} (h : ms.Perm ks)
    (distinct : (Listing.names ms).Nodup) :
    canonical? (.object .mutable ms) = canonical? (.object .mutable ks) := by
  unfold canonical?
  cases written : canonicalMembers? ms with
  | some ts =>
    obtain ⟨us, hus, perm⟩ := canonicalMembers?_perm h written
    have names : (Listing.names ts).Nodup := names_of_canonicalMembers? written ▸ distinct
    rw [hus, Option.map_some, Option.map_some, sortByName_perm perm names]
  | none =>
    cases written' : canonicalMembers? ks with
    | none => rfl
    | some us =>
      obtain ⟨ts, hts, -⟩ := canonicalMembers?_perm h.symm written'
      rw [written] at hts
      cases hts

/-- A relation of values and texts that passes from parts to what is written of them. -/
structure Spells (P : Value → String → Prop) : Prop where
  null : P .null "null"
  bool (b : Bool) : P (.bool b) (if b then "true" else "false")
  integer (n : Int) : P (.number (.integer n)) (toString n)
  double (x : Binary64) : P (.number (.double x)) (doubleText x)
  string (s : String) : P (.string s) (quote s)
  array (a : Access) (xs : List Value) (ts : List String) (items : List.Forall₂ P xs ts) :
    P (.array a xs) ("[" ++ ",".intercalate ts ++ "]")
  object (ms : List (String × Value)) (ts : List (String × String))
    (members : List.Forall₂ (Named P) ms ts) : P (.object .mutable ms)
      ("\x7b" ++ ",".intercalate ((sortByName ts).map fun t => quote t.1 ++ ":" ++ t.2) ++ "\x7d")

namespace Spells

variable {P : Value → String → Prop}

mutual

/-- Induction over canonical text. -/
theorem canonical (spells : Spells P) {v : Value} {t : String} (h : canonical? v = some t) :
    P v t := by
  match v with
  | .null =>
    cases h
    exact spells.null
  | .bool b =>
    cases h
    exact spells.bool b
  | .number (.integer n) =>
    cases h
    exact spells.integer n
  | .number (.double x) =>
    cases h
    exact spells.double x
  | .string s =>
    cases h
    exact spells.string s
  | .array a xs =>
    obtain ⟨ts, hts, rfl⟩ := Option.map_eq_some_iff.mp h
    exact spells.array a xs ts (spells.items hts)
  | .object .mutable ms =>
    obtain ⟨ts, hts, rfl⟩ := Option.map_eq_some_iff.mp h
    exact spells.object ms ts (spells.members hts)

theorem items (spells : Spells P) {xs : List Value} {ts : List String}
    (h : canonicalItems? xs = some ts) : List.Forall₂ P xs ts := by
  match xs with
  | [] =>
    cases h
    exact .nil
  | x :: xs =>
    obtain ⟨t, ht, h⟩ := Option.bind_eq_some_iff.mp h
    obtain ⟨rest, hrest, h⟩ := Option.bind_eq_some_iff.mp h
    cases h
    exact .cons (spells.canonical ht) (spells.items hrest)

theorem members (spells : Spells P) {ms : List (String × Value)} {ts : List (String × String)}
    (h : canonicalMembers? ms = some ts) : List.Forall₂ (Named P) ms ts := by
  match ms with
  | [] =>
    cases h
    exact .nil
  | (name, v) :: ms =>
    obtain ⟨t, rest, ht, hrest, rfl⟩ := canonicalMembers?_cons_eq_some_iff.mp h
    exact .cons (.intro name (spells.canonical ht)) (spells.members hrest)

end

end Spells

theorem mem_sortByName {ts : List (String × String)} {t : String × String} :
    t ∈ sortByName ts ↔ t ∈ ts :=
  (List.mergeSort_perm ts _).mem_iff

end Conform.Json
