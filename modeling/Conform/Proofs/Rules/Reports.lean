import Conform.Proofs.Rules.Walk

/-! What holds of all that a run reports, whether it ends or breaks off. Findings that stand in for a
rule that broke off are reported as well, so they count for a rule and no longer for a node. -/
namespace Conform.Rules

/-- Nothing but findings of a kind is reported; `said` gives those that come with an error. -/
def Reports {ε : Type} (said : ε → List Finding) (P : Finding → Prop) :
    Except ε (List Finding) → Prop
  | .ok found => ∀ f ∈ found, P f
  | .error e => ∀ f ∈ said e, P f

/-- The findings that stand in for all that a rule found before. -/
def Break.said : Break → List Finding
  | .replaced found => found
  | _ => []

/-- No finding comes with a fault. -/
abbrev NodeReports := Reports fun _ : Fault => []

abbrev RuleReports := Reports Break.said

namespace Reports

variable {α ε : Type} {said : ε → List Finding} {P Q : Finding → Prop}

theorem nil : Reports said P (.ok []) := List.forall_mem_nil P

theorem imp {x : Except ε (List Finding)} (h : Reports said P x) (step : ∀ f, P f → Q f) :
    Reports said Q x := by
  cases x with
  | error e => exact fun f hf => step f (h f hf)
  | ok found => exact fun f hf => step f (h f hf)

theorem bind {x r : Except ε (List Finding)} {stop : Bool} {take : List Finding → List Finding}
    (h : Reports said P x) (hr : Reports said P r) (sub : ∀ found, ∀ f ∈ take found, f ∈ found) :
    Reports said P (x >>= fun found =>
      if stop && !found.isEmpty then .ok (take found) else r.map (found ++ ·)) := by
  cases x with
  | error e => exact h
  | ok found =>
    change Reports said P (if stop && !found.isEmpty then .ok (take found) else
      r.map (found ++ ·))
    split
    · intro f hf
      apply h f (sub found f hf)
    · cases r with
      | error e => exact hr
      | ok more =>
        intro f hf
        exact (List.mem_append.mp hf).elim (h f) (hr f)

theorem of_bind {x : Logged ε α} {f : α → Logged ε (List Finding)}
    (failed : ∀ e, x.result = .error e → ∀ f ∈ said e, P f)
    (h : ∀ a, x.result = .ok a → Reports said P (f a).result) :
    Reports said P (x >>= f).result := by
  rw [Logged.result_bind]
  cases hx : x.result with
  | error e => exact failed e hx
  | ok a => exact h a hx

theorem gatherAll {stop : Bool} {f : α → Logged ε (List Finding)} {as : List α}
    (h : ∀ a ∈ as, Reports said P (f a).result) :
    Reports said P (gatherAll stop f as).result := by
  induction as with
  | nil => exact nil
  | cons a as ih =>
    rw [List.forall_mem_cons] at h
    rw [Rules.gatherAll, result_gather]
    apply h.1.bind (ih h.2)
    exact fun _ _ hf => hf

/-- Only the first finding is said otherwise. -/
theorem firstAs {x : Except Fault (List Finding)} {g : Finding → Finding}
    (h : NodeReports P x) (step : ∀ f, P f → Q (g f)) : NodeReports Q (x.map (firstAs g)) := by
  cases x with
  | error e => exact List.forall_mem_nil Q
  | ok found =>
    intro f hf
    obtain ⟨first, hfirst, rfl⟩ := List.mem_map.mp hf
    rw [Option.mem_toList] at hfirst
    apply step
    apply h
    exact List.mem_of_head? hfirst

theorem lift {x : Evaluating (List Finding)} (h : NodeReports P x.result) :
    RuleReports P (lift x).result := by
  rw [result_lift]
  generalize x.result = y at h
  cases y with
  | error e => exact List.forall_mem_nil P
  | ok found => exact h

theorem lift_map {x : Evaluating (List Finding)} {g : List Finding → List Finding}
    (h : NodeReports P (x.result.map g)) : RuleReports P ((Rules.lift x).map g).result := by
  rw [Logged.result_map, result_lift]
  generalize x.result = y at h
  cases y with
  | error e => exact List.forall_mem_nil P
  | ok found => exact h

/-- A rule that only counts or asks reports what it makes of the answer. -/
theorem lift_answer {x : Evaluating α} {g : α → List Finding} (h : ∀ a, ∀ f ∈ g a, P f) :
    RuleReports P ((Rules.lift x).map g).result := by
  rw [Logged.result_map, result_lift]
  cases x.result with
  | error e => exact List.forall_mem_nil P
  | ok a => exact h a

theorem settle {keyword : String} {path : Path} {x : Checking (List Finding)}
    (h : RuleReports P x.result) : NodeReports P (settle keyword path x).result := by
  rw [result_settle]
  generalize x.result = y at h
  cases y with
  | ok found => exact h
  | error e =>
    cases e with
    | replaced found => exact h
    | fault f | breakdown b => exact List.forall_mem_nil P

theorem runEntries {s : Subject} {es : List Entry}
    (h : ∀ e ∈ es, NodeReports P (runEntry s e).result) : NodeReports P (runEntries s es).result := by
  induction es with
  | nil =>
    rw [Rules.runEntries]
    exact nil
  | cons e es ih =>
    rw [List.forall_mem_cons] at h
    rw [result_runEntries_cons]
    apply h.1.bind (ih h.2)
    exact fun _ _ => List.mem_of_mem_take

end Reports

end Conform.Rules
