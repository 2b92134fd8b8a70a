import Conform.Proofs.Rules.Walk

/-! What relates a run that stops at its first finding to one that does not. The relation is kept by
every step of a walk, so two walks relate where their visits do. -/
namespace Conform.Rules

/-- The outcomes of a run to the end and of one that stops: they begin alike, or the first fails
hard only after the place where the second stops, or both fail alike. -/
inductive Cut {ε : Type} (hard : ε → Prop) :
    Except ε (List Finding) → Except ε (List Finding) → Prop
  | alike {all some : List Finding} (first : some.head? = all.head?) : Cut hard (.ok all) (.ok some)
  | early {e : ε} {f : Finding} {fs : List Finding} (final : hard e) :
    Cut hard (.error e) (.ok (f :: fs))
  | failed (e : ε) : Cut hard (.error e) (.error e)

namespace Cut

variable {ε : Type} {hard : ε → Prop}

theorem refl (x : Except ε (List Finding)) : Cut hard x x := by
  cases x with
  | error e => exact .failed e
  | ok found => exact .alike rfl

theorem of_eq {x y : Except ε (List Finding)} (h : x = y) : Cut hard x y := h ▸ .refl x

/-- Stopping hides no first finding. -/
theorem eq_nil_iff {x y : Except ε (List Finding)} (h : Cut hard x y) :
    x = .ok [] ↔ y = .ok [] := by
  cases h with
  | @alike all some first =>
    rw [Except.ok.injEq, Except.ok.injEq, ← List.head?_eq_none_iff, ← List.head?_eq_none_iff, first]
  | early => simp
  | failed => simp

/-- The step of every walk: when the stopped run has found something it looks no further, and
whatever the other run still meets comes after that. -/
theorem bind {x y r t : Except ε (List Finding)} (take : List Finding → List Finding)
    (h : Cut hard x y) (ht : Cut hard r t) (final : ∀ e, r = .error e → hard e)
    (head : ∀ found, (take found).head? = found.head?) :
    Cut hard (x >>= fun found => r.map (found ++ ·))
      (y >>= fun found => if !found.isEmpty then .ok (take found) else t.map (found ++ ·)) := by
  cases h with
  | failed e => exact .failed e
  | @early e f fs he =>
    obtain ⟨gs, hg⟩ := List.head?_eq_some_iff.mp (head (f :: fs))
    simpa [Bind.bind, Except.bind, hg] using Cut.early he
  | @alike all some first =>
    cases some with
    | nil =>
      obtain rfl : all = [] := List.head?_eq_none_iff.mp first.symm
      cases ht with
      | alike h => exact .alike h
      | early he => exact .early he
      | failed e => exact .failed e
    | cons f fs =>
      obtain ⟨gs, hg⟩ := List.head?_eq_some_iff.mp (head (f :: fs))
      obtain ⟨more, rfl⟩ := List.head?_eq_some_iff.mp first.symm
      -- the stopped run ends here; the other goes on to what it may still fail at
      cases r with
      | error e =>
        simpa [Bind.bind, Except.bind, Except.map, hg] using Cut.early (final e rfl)
      | ok later =>
        simpa [Bind.bind, Except.bind, Except.map, hg] using Cut.alike (by simp)

/-- What both runs compute alike makes no difference. -/
theorem of_bind {α : Type} {x : Logged ε α} {f g : α → Logged ε (List Finding)}
    (h : ∀ a, x.result = .ok a → Cut hard (f a).result (g a).result) :
    Cut hard (x >>= f).result (x >>= g).result := by
  rw [Logged.result_bind, Logged.result_bind]
  cases hx : x.result with
  | error e => exact .refl _
  | ok a => exact h a hx

theorem gather {first first' : Logged ε (List Finding)}
    {rest rest' : Unit → Logged ε (List Finding)} (h : Cut hard first.result first'.result)
    (ht : Cut hard (rest ()).result (rest' ()).result)
    (final : ∀ e, (rest ()).result = .error e → hard e) :
    Cut hard (gather false first rest).result (gather true first' rest').result := by
  rw [result_gather, result_gather]
  simpa using h.bind id ht final fun _ => rfl

end Cut

section

variable {α ε : Type} {hard : ε → Prop}

theorem exists_of_result_gatherAll_eq_error {stop : Bool} {f : α → Logged ε (List Finding)}
    {as : List α} {e : ε} (h : (gatherAll stop f as).result = .error e) :
    ∃ a ∈ as, (f a).result = .error e := by
  induction as with
  | nil => cases h
  | cons a as ih =>
    rw [gatherAll, result_gather] at h
    cases hf : (f a).result with
    | error d =>
      rw [hf] at h
      exact ⟨a, .head _, hf.trans h⟩
    | ok found =>
      simp only [hf, bind, Except.bind] at h
      split at h
      · cases h
      · cases hr : (gatherAll stop f as).result with
        | error d =>
          rw [hr] at h
          obtain ⟨b, hb, hfb⟩ := ih (hr.trans h)
          exact ⟨b, .tail _ hb, hfb⟩
        | ok more => simp [hr, Except.map] at h

theorem Cut.gatherAll {f g : α → Logged ε (List Finding)} {as : List α}
    (h : ∀ a ∈ as, Cut hard (f a).result (g a).result)
    (final : ∀ a ∈ as, ∀ e, (f a).result = .error e → hard e) :
    Cut hard (gatherAll false f as).result (gatherAll true g as).result := by
  induction as with
  | nil => exact .refl _
  | cons a as ih =>
    rw [List.forall_mem_cons] at h final
    refine Cut.gather h.1 (ih h.2 final.2) fun e he => ?_
    obtain ⟨b, hb, hfb⟩ := exists_of_result_gatherAll_eq_error he
    exact final.2 b hb e hfb

end

/-- What ends a rule for good. Findings that replace others do not: the rule has then said all. -/
def Break.Hard : Break → Prop
  | .replaced _ => False
  | _ => True

/-- Any fault ends a run. -/
abbrev FaultCut := Cut fun _ : Fault => True

abbrev BreakCut := Cut Break.Hard

theorem FaultCut.lift {x y : Evaluating (List Finding)} (h : FaultCut x.result y.result) :
    BreakCut (lift x).result (lift y).result := by
  rw [result_lift, result_lift]
  generalize x.result = a, y.result = b at h
  cases h with
  | alike first => exact .alike first
  | early _ => exact .early trivial
  | failed e => exact .failed _

theorem BreakCut.settle {keyword : String} {path : Path} {x y : Checking (List Finding)}
    (h : BreakCut x.result y.result) :
    FaultCut (settle keyword path x).result (settle keyword path y).result := by
  rw [result_settle, result_settle]
  generalize x.result = a, y.result = b at h
  cases h with
  | alike first => exact .alike first
  | failed e => exact .refl _
  | @early e f fs hard =>
    cases e with
    | fault | breakdown => exact .early trivial
    | replaced => cases hard

end Conform.Rules
