import Conform.Proofs.Rules.Walk

/-! Two runs that mirror each other: their findings correspond one by one, and they fail at the same
places for reasons that correspond. Every step of a walk keeps that. -/
namespace Conform.Rules

/-- Outcomes that correspond, results by `Q` and errors by `E`. -/
inductive Mirrors {ε δ α β : Type} (E : ε → δ → Prop) (Q : α → β → Prop) :
    Except ε α → Except δ β → Prop
  | ok {a : α} {b : β} (same : Q a b) : Mirrors E Q (.ok a) (.ok b)
  | error {e : ε} {d : δ} (same : E e d) : Mirrors E Q (.error e) (.error d)

/-- The second list is the image of the first. -/
abbrev MappedBy (g : Finding → Finding) (found found' : List Finding) : Prop :=
  found' = found.map g

/-- Breaks that correspond: findings in the place of others do, and what ends a run ends both. -/
inductive BreakMapped (g : Finding → Finding) : Break → Break → Prop
  | fault (f f' : Fault) : BreakMapped g (.fault f) (.fault f')
  | breakdown (b b' : Breakdown) : BreakMapped g (.breakdown b) (.breakdown b')
  | replaced (found : List Finding) : BreakMapped g (.replaced found) (.replaced (found.map g))

/-- Two runs of a node. Why they fail is left open, as the words for it may name the place. -/
abbrev NodeMirrors (g : Finding → Finding) := Mirrors (fun _ _ : Fault => True) (MappedBy g)

abbrev RuleMirrors (g : Finding → Finding) := Mirrors (BreakMapped g) (MappedBy g)

namespace Mirrors

variable {ε δ α β γ κ : Type} {E : ε → δ → Prop} {Q : α → β → Prop} {S : γ → κ → Prop}
  {g : Finding → Finding}

theorem nil : Mirrors E (MappedBy g) (.ok []) (.ok []) := .ok rfl

theorem bind {x : Except ε α} {y : Except δ β} {f : α → Except ε γ} {h : β → Except δ κ}
    (first : Mirrors E Q x y) (next : ∀ a b, Q a b → Mirrors E S (f a) (h b)) :
    Mirrors E S (x >>= f) (y >>= h) := by
  cases first with
  | ok same => exact next _ _ same
  | error same => exact .error same

theorem map {x : Except ε α} {y : Except δ β} {f : α → γ} {h : β → κ} (first : Mirrors E Q x y)
    (next : ∀ a b, Q a b → S (f a) (h b)) : Mirrors E S (x.map f) (y.map h) := by
  cases first with
  | ok same => exact .ok (next _ _ same)
  | error same => exact .error same

theorem of_bind {x : Logged ε α} {y : Logged δ β} {f : α → Logged ε γ} {h : β → Logged δ κ}
    (first : Mirrors E Q x.result y.result)
    (next : ∀ a b, Q a b → Mirrors E S (f a).result (h b).result) :
    Mirrors E S (x >>= f).result (y >>= h).result := by
  rw [Logged.result_bind, Logged.result_bind]
  exact first.bind next

/-- The step of every walk. -/
theorem join {x r : Except ε (List Finding)} {y t : Except δ (List Finding)} {stop : Bool}
    {take : List Finding → List Finding} (h : Mirrors E (MappedBy g) x y)
    (ht : Mirrors E (MappedBy g) r t) (comm : ∀ found, take (found.map g) = (take found).map g) :
    Mirrors E (MappedBy g)
      (x >>= fun found => if stop && !found.isEmpty then .ok (take found) else r.map (found ++ ·))
      (y >>= fun found => if stop && !found.isEmpty then .ok (take found)
        else t.map (found ++ ·)) := by
  apply h.bind
  rintro found _ rfl
  rw [List.isEmpty_map]
  split
  · exact .ok (comm found)
  · apply ht.map
    rintro more _ rfl
    exact (List.map_append ..).symm

theorem gatherAll {stop : Bool} {f : α → Logged ε (List Finding)}
    {h : α → Logged δ (List Finding)} {as : List α}
    (each : ∀ a ∈ as, Mirrors E (MappedBy g) (f a).result (h a).result) :
    Mirrors E (MappedBy g) (gatherAll stop f as).result (gatherAll stop h as).result := by
  induction as with
  | nil => exact nil
  | cons a as ih =>
    rw [List.forall_mem_cons] at each
    rw [Rules.gatherAll, Rules.gatherAll, result_gather, result_gather]
    exact each.1.join (ih each.2) fun _ => rfl

/-- Findings said otherwise, where that commutes. -/
theorem firstAs_map {f h : Finding → Finding} (comm : ∀ inner, h (g inner) = g (f inner))
    (found : List Finding) : Rules.firstAs h (found.map g) = (Rules.firstAs f found).map g := by
  cases found with
  | nil => rfl
  | cons inner rest => exact congrArg (fun f => [f]) (comm inner)

theorem firstAs {x y : Except Fault (List Finding)} {f h : Finding → Finding}
    (first : NodeMirrors g x y) (comm : ∀ inner, h (g inner) = g (f inner)) :
    NodeMirrors g (x.map (firstAs f)) (y.map (Rules.firstAs h)) := by
  apply first.map
  rintro found _ rfl
  exact firstAs_map comm found

theorem lift {x y : Evaluating (List Finding)} (h : NodeMirrors g x.result y.result) :
    RuleMirrors g (lift x).result (Rules.lift y).result := by
  rw [result_lift, result_lift]
  generalize x.result = a, y.result = b at h
  cases h with
  | ok same => exact .ok same
  | error => exact .error (.fault _ _)

/-- What both runs make of answers that are the same. -/
theorem lift_map {x : Evaluating α} {y : Evaluating β} {f : α → List Finding}
    {h : β → List Finding} (first : Mirrors (fun _ _ => True) Q x.result y.result)
    (next : ∀ a b, Q a b → h b = (f a).map g) :
    RuleMirrors g ((Rules.lift x).map f).result ((Rules.lift y).map h).result := by
  rw [Logged.result_map, Logged.result_map, result_lift, result_lift]
  generalize x.result = a, y.result = b at first
  cases first with
  | ok same => exact .ok (next _ _ same)
  | error => exact .error (.fault _ _)

/-- What goes on after any failure does so in both runs. -/
theorem recover {x : Evaluating α} {y : Evaluating β} {a : α} {b : β}
    (first : Mirrors (fun _ _ => True) Q x.result y.result) (same : Q a b) :
    Mirrors (fun _ _ : Fault => True) Q (x.recover fun _ => pure a).result
      (y.recover fun _ => pure b).result := by
  obtain ⟨result, log⟩ := x
  obtain ⟨result', log'⟩ := y
  change Mirrors _ Q result result' at first
  cases first with
  | ok same => exact .ok same
  | error => exact .ok same

theorem settle {keyword : String} {p q : Path} {x y : Checking (List Finding)}
    (h : RuleMirrors g x.result y.result) :
    NodeMirrors g (settle keyword p x).result (Rules.settle keyword q y).result := by
  rw [result_settle, result_settle]
  generalize x.result = a, y.result = b at h
  cases h with
  | ok same => exact .ok same
  | error same =>
    cases same with
    | fault | breakdown => exact .error trivial
    | replaced found => exact .ok rfl

end Mirrors

end Conform.Rules
