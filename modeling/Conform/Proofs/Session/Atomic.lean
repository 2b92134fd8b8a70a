import Conform.Proofs.Session.Effect

/-! Calls that change a validator do so wholly or not at all. What fails leaves rules, comparators,
formats, options and memory as they were, and a run goes on as if it had never been asked. -/
namespace Conform

namespace Validator

open Work

theorem atomic_enterRule (name : String) (rule : Option CustomRule) (kind : Kind) (replace : Bool) :
    Atomic Eq (enterRule name rule kind replace) := by
  refine .get_bind fun v => ?_
  split
  · exact .fail (fun _ => rfl) _
  · exact ((total_set _).bind fun _ => total_modify _).atomic

theorem atomic_enterComparator (name : String) (c : Option Comparator) (replace : Bool) :
    Atomic Eq (enterComparator name c replace) := by
  refine .get_bind fun v => ?_
  split
  · exact .fail (fun _ => rfl) _
  · exact (total_set _).atomic

theorem atomic_setOption (name : String) (value : Value) :
    Atomic Eq (setOption name value) := by
  refine .get_bind fun v => ?_
  split
  · exact (total_set _).atomic
  · exact .fail (fun _ => rfl) _
  · exact .fail (fun _ => rfl) _

theorem total_setMode (mode : Mode) : Total (setMode mode) :=
  (total_modify _).bind fun _ => total_modify _

theorem atomic_compile (a : Source) : Atomic Eq (compile a) := by
  intro v e failed
  rw [compile] at failed ⊢
  rcases outcome_compileFor_cases .compiling a v with
    ⟨_, c, -, outcome⟩ | ⟨d, -, outcome⟩ | ⟨n, -, outcome⟩
  · rw [outcome]
  · rw [outcome]
  · rw [outcome] at failed
    cases failed

end Validator

/-- The requests that are to change a validator and may be refused. -/
def Request.changes : Request → Bool
  | .compile .. | .enterRule .. | .enterComparator .. | .enterFormat .. | .setOption ..
  | .setMode _ | .setLayout _ => true
  | _ => false

namespace Session

open Work

variable {t : Target} {α : Type}

/-- The session as it was, but that the default validator may have been made if it is the target. -/
def Unchanged (t : Target) (s s' : Session) : Prop :=
  s' = s ∨ t = .default ∧ s' = { s with default := some (s.default.getD {}) }

theorem Unchanged.refl (s : Session) : Unchanged t s s := .inl rfl

/-- No validator has anything else in it. -/
theorem Unchanged.validatorOf {s s' : Session} (h : Unchanged t s s') (u : Target) :
    s'.validatorOf u = s.validatorOf u := by
  rcases h with rfl | ⟨-, rfl⟩
  · rfl
  · cases u <;> rfl

theorem Unchanged.formats {s s' : Session} (h : Unchanged t s s') : s'.formats = s.formats := by
  rcases h with rfl | ⟨-, rfl⟩ <;> rfl

theorem atomic_through {f : Listing Checker → Validating α} (h : ∀ shared, Atomic Eq (f shared)) :
    Atomic (Unchanged t) (through t f) := by
  intro s e failed
  have same := h s.formats (s.validatorOf t) e failed
  have outcome : ((through t f).outcome s).2 = s.withValidator (s.validatorOf t) t :=
    congrArg (s.withValidator · t) same.symm
  rw [outcome]
  cases t with
  | own => exact .inl rfl
  | default => exact .inr ⟨rfl, rfl⟩

theorem atomic_quietly {w : Answering Unit} (h : Atomic (Unchanged t) w) :
    Atomic (Unchanged t) (quietly w) := h.bind fun _ => total_pure _

theorem atomic_enterFormat (name : String) (c : Option Checker) :
    Atomic (Unchanged t) (enterFormat t name c) := by
  refine .get_bind fun s => ?_
  split
  · exact .ofExcept_bind Unchanged.refl fun _ => (total_set _).atomic
  · exact .ofExcept_bind Unchanged.refl fun _ => (total_set _).atomic

theorem atomic_compileAs (schema : Source) (handle : String) :
    Atomic (Unchanged t) (compileAs t schema handle) := by
  -- what comes after compilation only keeps the result
  refine (atomic_through fun _ => Validator.atomic_compile schema).bind fun c => ?_
  exact fun s => ((total_set _).bind fun _ => total_pure _) s

theorem atomic_perform {r : Request} (changes : r.changes) : Atomic (Unchanged t) (perform t r) := by
  cases r with
  | compile schema handle => exact atomic_compileAs schema handle
  | enterRule name rule kind replace =>
    refine .ofExcept_bind Unchanged.refl fun kind => ?_
    cases t with
    | own =>
      exact atomic_quietly (atomic_through fun _ =>
        Validator.atomic_enterRule name rule kind replace)
    | default =>
      exact atomic_quietly (atomic_through fun _ =>
        Validator.atomic_enterRule name rule .custom false)
  | enterComparator name c replace =>
    exact atomic_quietly (atomic_through fun _ => Validator.atomic_enterComparator name c _)
  | enterFormat name c => exact atomic_quietly (atomic_enterFormat name c)
  | setOption name value =>
    exact atomic_quietly (atomic_through fun _ => Validator.atomic_setOption name value)
  | setMode mode =>
    refine .ofExcept_bind Unchanged.refl fun mode => ?_
    exact atomic_quietly (atomic_through fun _ => (Validator.total_setMode mode).atomic)
  | setLayout layout =>
    refine .ofExcept_bind Unchanged.refl fun layout => ?_
    exact atomic_quietly (atomic_through fun _ => (total_modify _).atomic)
  | _ => cases changes

/-- The requests of a run without the calls that are refused on the way. -/
def heard (s : Session) : List Request → List Request
  | [] => []
  | r :: requests =>
    let later := heard (perform .own r s).2 requests
    match r.changes, (perform .own r s).1.result with
    | true, .error _ => later
    | _, _ => r :: later

/-- A run goes as if the calls that are refused on the way were never made. -/
theorem after_heard (s : Session) (requests : List Request) :
    s.after (s.heard requests) = s.after requests := by
  induction requests generalizing s with
  | nil => rfl
  | cons r requests ih =>
    show _ = (perform .own r s).2.after requests
    rw [heard]
    split
    · next changes failed =>
      have undone : (perform .own r s).2 = s := by
        rcases atomic_perform (t := .own) changes s _ failed with same | ⟨other, -⟩
        · exact same
        · cases other
      rw [← ih, undone]
    · exact ih _

/-- A refused change changes nothing: whatever fails of a compilation, a registration of a rule, a
comparator or a format, or an assignment of an option, the mode or the layout, the rules,
comparators, formats, options and memory of both validators are those of before. The session itself
is the one of before, but that its default validator is made when it is the target. -/
theorem refused_change_unchanged {r : Request} {s : Session} {e : Failure} (changes : r.changes)
    (failed : (perform t r s).1.result = .error e) :
    (∀ u, (perform t r s).2.validatorOf u = s.validatorOf u) ∧
    (perform t r s).2.formats = s.formats ∧
    ((perform t r s).2 = s ∨
      t = .default ∧ (perform t r s).2 = { s with default := some (s.default.getD {}) }) := by
  have unchanged : Unchanged t s (perform t r s).2 := atomic_perform changes s e failed
  exact ⟨unchanged.validatorOf, unchanged.formats, unchanged⟩

/-- A session whose validator has compiled a schema and remembers it. -/
def warmSession : Session :=
  { own := { options := { caching := true }, memory := [("\x7b\x7d", ⟨0, .mk .strict [] [] []⟩)],
             made := 1 } }

/-- A rule under a name that is taken is refused, and what is compiled stays remembered. -/
theorem refused_change_unchanged_warmSession :
    let r : Request := .enterRule "type" (some ⟨"lax", fun _ => .passed⟩) (.string "custom") false
    r.changes = true ∧
    (perform .own r warmSession).1.result = .error (.fault (.entry (.taken .rules "type"))) ∧
    (perform .own r warmSession).2.own.memory = [("\x7b\x7d", ⟨0, .mk .strict [] [] []⟩)] := by
  intro r
  have failed : (perform .own r warmSession).1.result =
      .error (.fault (.entry (.taken .rules "type"))) := rfl
  obtain ⟨validators, -, -⟩ := refused_change_unchanged (t := .own) rfl failed
  exact ⟨rfl, failed, congrArg Validator.memory (validators .own)⟩

end Session

end Conform
