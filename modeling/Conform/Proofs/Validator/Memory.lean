import Conform.Proofs.Work.Parallel
import Conform.Validator.Record

/-! The memory of compiled schemas. What one source of a text compiles to answers for every source
of that text, so two of them may share a place only if they compile alike. -/
namespace Conform

/-- What a source compiles to under some rules in a mode. -/
def Source.Makes (a : Source) (rules : Listing Rule) (mode : Mode) (n : Node) : Prop :=
  ∃ d, Document.read mode a = .ok d ∧ (compileSchema rules mode d.raw).result = .ok n

/-- Compiled schemas that report the same findings in the same order, or fail alike, on every
value. -/
def Node.ReportsAs (n m : Node) : Prop :=
  ∀ (frame : Frame) (value : Value) (root : String),
    (Rules.evaluate ⟨frame, value, .ofString root⟩ n).result =
      (Rules.evaluate ⟨frame, value, .ofString root⟩ m).result

/-- A relation of compiled schemas that validation cannot tell apart. -/
structure Likeness (E : Node → Node → Prop) : Prop where
  refl (n : Node) : E n n
  reports (n m : Node) : E n m → n.ReportsAs m

theorem likeness_eq : Likeness Eq where
  refl _ := rfl
  reports _ _ same := by
    subst same
    exact fun _ _ _ => rfl

theorem likeness_reportsAs : Likeness Node.ReportsAs where
  refl _ := fun _ _ _ => rfl
  reports _ _ h := h

/-- Sources that may share a place in the memory: those of one text compile alike. -/
def Coherent (E : Node → Node → Prop) (P : Source → Prop) : Prop :=
  ∀ a b, P a → P b → ∀ key, a.memoText? = some key → b.memoText? = some key →
    ∀ rules mode n, a.Makes rules mode n → ∃ m, b.Makes rules mode m ∧ E n m

namespace Validator

/-- The outcome of a source that is not remembered. -/
def compileAnew (purpose : Purpose) (a : Source) (v : Validator) : Except Failure Node :=
  match Document.read v.options.mode a with
  | .error cause => .error (.fault (.unreadable purpose cause))
  | .ok d =>
    (compileSchema v.rules v.options.mode d.raw).result.mapError (compileFailure purpose)

variable {purpose : Purpose} {a b : Source} {v : Validator} {n : Node} {c : Compiled}

theorem exists_of_remembered {key : Option String} (h : v.remembered? key = some c) :
    ∃ k, key = some k ∧ v.memory.get? k = some c := by
  unfold remembered? at h
  split at h
  · exact Option.bind_eq_some_iff.mp h
  · cases h

theorem remembered_of_not_caching (off : v.options.caching = false) (key : Option String) :
    v.remembered? key = none := by
  simp [remembered?, off]

theorem remember_of_not_caching (off : v.options.caching = false) (key : Option String)
    (c : Compiled) : v.remember key c = v := by
  unfold remember
  cases key <;> simp [off]

/-- What is found after something has been remembered was there before, or is that. -/
theorem get?_remember {key : Option String} {name : String} {d : Compiled}
    (found : (v.remember key c).memory.get? name = some d) :
    v.memory.get? name = some d ∨ key = some name ∧ d = c := by
  unfold remember at found
  split at found
  · next k =>
    split at found
    · by_cases same : name = k
      · subst same
        rw [Listing.get?_put_self] at found
        exact .inr ⟨rfl, (Option.some.inj found).symm⟩
      · rw [Listing.get?_put_of_ne same] at found
        exact .inl found
    · exact .inl found
  · exact .inl found

theorem compileAnew_eq_ok_iff :
    compileAnew purpose a v = .ok n ↔ a.Makes v.rules v.options.mode n := by
  unfold compileAnew Source.Makes
  cases Document.read v.options.mode a with
  | error cause => simp
  | ok d =>
    have same := Logged.result_mapError_eq_ok_iff (f := compileFailure purpose)
      (x := compileSchema v.rules v.options.mode d.raw) (a := n)
    simpa using same

theorem compileFor_of_remembered (h : v.remembered? a.memoText? = some c) :
    compileFor purpose a v = (pure c, v) := by
  simp only [compileFor, h]

theorem compileFor_of_error (h : v.remembered? a.memoText? = none) {e : Failure}
    (failed : compileAnew purpose a v = .error e) :
    (compileFor purpose a v).1.result = .error e ∧ (compileFor purpose a v).2 = v := by
  unfold compileAnew at failed
  simp only [compileFor, h]
  cases hd : Document.read v.options.mode a with
  | error cause =>
    rw [hd] at failed
    cases failed
    exact ⟨rfl, rfl⟩
  | ok d =>
    simp only [hd] at failed
    simp only [Logged.result_mapError, failed, and_self]

theorem compileFor_of_ok (h : v.remembered? a.memoText? = none)
    (made : compileAnew purpose a v = .ok n) :
    (compileFor purpose a v).1.result = .ok ⟨v.made, n⟩ ∧
      (compileFor purpose a v).2 =
        { v.remember a.memoText? ⟨v.made, n⟩ with made := v.made + 1 } := by
  unfold compileAnew at made
  simp only [compileFor, h]
  cases hd : Document.read v.options.mode a with
  | error cause =>
    rw [hd] at made
    cases made
  | ok d =>
    simp only [hd] at made
    simp only [Logged.result_mapError, made, and_self]

theorem makes_of_compileFor (anew : v.remembered? a.memoText? = none)
    (h : (compileFor purpose a v).1.result = .ok c) : a.Makes v.rules v.options.mode c.node := by
  cases outcome : compileAnew purpose a v with
  | error e =>
    rw [(compileFor_of_error anew outcome).1] at h
    cases h
  | ok n =>
    rw [(compileFor_of_ok anew outcome).1] at h
    cases h
    exact compileAnew_eq_ok_iff.mp outcome

/-- What one source made is remembered for every source of its text. -/
theorem remembered_of_compileFor (caching : v.options.caching = true) {key : String}
    (known : a.memoText? = some key) (known' : b.memoText? = some key)
    (anew : v.remembered? a.memoText? = none) (makes : a.Makes v.rules v.options.mode n) :
    (compileFor purpose a v).2.remembered? b.memoText? = some ⟨v.made, n⟩ := by
  rw [(compileFor_of_ok anew (compileAnew_eq_ok_iff.mpr makes)).2, known, known']
  simp [remember, remembered?, caching]

theorem validateWith_of_remembered {shared : Listing Checker} {value : Value} {root : String}
    (h : v.remembered? a.memoText? = some c) :
    validateWith shared value a root v = validate shared value c.node root v := by
  show Work.bind (compileFor .compiling a) (fun c => validate shared value c.node root) v = _
  unfold Work.bind
  rw [compileFor_of_remembered h]
  rfl

end Validator

end Conform
