import Conform.Proofs.Validator.Memory

/-! Twins: validators of one configuration, of which the first may remember what it compiles and the
second never does. Asked for the same they answer alike and stay twins. -/
namespace Conform.Validator

/-- The validator `o` holds what no work here changes; `P` says which sources are asked for. -/
structure Twins (o : Validator) (P : Source → Prop) (v w : Validator) : Prop where
  options : w.options = { v.options with caching := false }
  rules : w.rules = v.rules
  comparators : w.comparators = v.comparators
  formats : w.formats = v.formats
  hooks : v.hooks = o.hooks ∧ w.hooks = o.hooks
  tagName : v.options.tagName = o.options.tagName
  memory : ∀ key c, v.memory.get? key = some c →
    ∃ a, P a ∧ a.memoText? = some key ∧ a.Makes v.rules v.options.mode c.node

variable {E : Node → Node → Prop} {P : Source → Prop} {o v w : Validator} {shared : Listing Checker}

namespace Twins

theorem not_caching (twins : Twins o P v w) : w.options.caching = false := by
  rw [twins.options]

/-- What is compiled anew may be remembered. -/
theorem remembering (twins : Twins o P v w) {a : Source} {c : Compiled} (asked : P a)
    (makes : a.Makes v.rules v.options.mode c.node) (i j : Nat) :
    Twins o P { v.remember a.memoText? c with made := i } { w with made := j } := by
  unfold remember
  split
  · next key known =>
    split
    · exact { twins with
        memory := by
          intro name d found
          by_cases same : name = key
          · subst same
            rw [Listing.get?_put_self] at found
            cases found
            exact ⟨a, asked, known, makes⟩
          · rw [Listing.get?_put_of_ne same] at found
            exact twins.memory name d found }
    · exact { twins with }
  · exact { twins with }

end Twins

/-- The validator that remembers answers with what another source of the same text has made. -/
theorem parallel_compileFor (likeness : Likeness E) (coherent : Coherent E P) (purpose : Purpose)
    {a : Source} (asked : P a) :
    Work.Parallel (Twins o P) (fun c d => E c.node d.node)
      (compileFor purpose a) (compileFor purpose a) := by
  intro v w twins
  have off := remembered_of_not_caching twins.not_caching a.memoText?
  have anew : compileAnew purpose a w = compileAnew purpose a v := by
    unfold compileAnew
    rw [twins.options, twins.rules]
  cases remembered : v.remembered? a.memoText? with
  | some c =>
    -- what is remembered may come from another source, and the second compiles this one
    obtain ⟨key, hkey, found⟩ := exists_of_remembered remembered
    obtain ⟨b, hb, hbkey, makes⟩ := twins.memory key c found
    obtain ⟨m, hm, alike⟩ := coherent b a hb asked key hbkey hkey _ _ _ makes
    obtain ⟨result, state⟩ :=
      compileFor_of_ok off (anew.trans (compileAnew_eq_ok_iff.mpr hm))
    rw [remember_of_not_caching twins.not_caching] at state
    rw [compileFor_of_remembered remembered, result, state]
    exact ⟨.ok alike, { twins with }⟩
  | none =>
    cases outcome : compileAnew purpose a v with
    | error e =>
      obtain ⟨result, state⟩ := compileFor_of_error remembered outcome
      obtain ⟨result', state'⟩ := compileFor_of_error off (anew.trans outcome)
      rw [result, state, result', state']
      exact ⟨.error e, twins⟩
    | ok n =>
      obtain ⟨result, state⟩ := compileFor_of_ok remembered outcome
      obtain ⟨result', state'⟩ := compileFor_of_ok off (anew.trans outcome)
      rw [remember_of_not_caching twins.not_caching] at state'
      rw [result, state, result', state']
      have makes := compileAnew_eq_ok_iff.mp outcome
      exact ⟨.ok (likeness.refl n), twins.remembering asked makes _ _⟩

theorem parallel_validate (likeness : Likeness E) (value : Value) {n m : Node} (alike : E n m)
    (root : String) :
    Work.Parallel (Twins o P) Eq (validate shared value n root) (validate shared value m root) := by
  intro v w twins
  have frame : w.frame shared = v.frame shared := by
    unfold Validator.frame
    rw [twins.options, twins.formats]
  refine ⟨?_, twins⟩
  unfold validate
  rw [frame, Logged.result_mapError, Logged.result_mapError, likeness.reports n m alike]
  exact .of_eq rfl

theorem parallel_validateWith (likeness : Likeness E) (coherent : Coherent E P) (value : Value)
    {a : Source} (asked : P a) (root : String) :
    Work.Parallel (Twins o P) Eq
      (validateWith shared value a root) (validateWith shared value a root) := by
  unfold validateWith compile
  exact (parallel_compileFor likeness coherent .compiling asked).bind fun _ _ alike =>
    parallel_validate likeness value alike root

theorem parallel_validateText (likeness : Likeness E) (coherent : Coherent E P) (data : Value)
    {a : Source} (asked : P a) :
    Work.Parallel (Twins o P) Eq (validateText shared data a) (validateText shared data a) := by
  unfold validateText
  cases readData data with
  | error cause => exact .fail _
  | ok value =>
    exact (parallel_compileFor likeness coherent .validating asked).bind fun _ _ alike =>
      parallel_validate likeness value alike rootName

theorem parallel_forget : Work.Parallel (Twins o P) Eq forget forget :=
  .modify fun _ _ twins => { twins with memory := fun _ _ found => nomatch found }

theorem setMode_apply (mode : Mode) (v : Validator) :
    setMode mode v = (pure (), { v with options := { v.options with mode }, memory := [] }) := rfl

theorem parallel_setMode (mode : Mode) :
    Work.Parallel (Twins o P) Eq (setMode mode) (setMode mode) := by
  intro v w twins
  rw [setMode_apply, setMode_apply]
  exact ⟨.ok rfl, { twins with
    options := by rw [twins.options]
    memory := fun _ _ found => nomatch found }⟩

/-- The rules change and the memory is emptied in one step, as what is remembered fits no rules but
those it was compiled under. -/
theorem enterRule_apply (name : String) (rule : Option CustomRule) (kind : Kind) (replace : Bool)
    (v : Validator) :
    enterRule name rule kind replace v =
      match Registry.enter .rules replace name (rule.map fun r => ⟨.custom r, kind⟩) v.rules with
      | .error f => (.fail (.fault (.entry f)), v)
      | .ok rules => (pure (), { v with rules, memory := [] }) := by
  unfold enterRule
  rw [Work.get_bind_apply]
  cases Registry.enter .rules replace name (rule.map fun r => ⟨.custom r, kind⟩) v.rules with
  | error f => rfl
  | ok rules => rfl

theorem parallel_enterRule (name : String) (rule : Option CustomRule) (kind : Kind)
    (replace : Bool) :
    Work.Parallel (Twins o P) Eq
      (enterRule name rule kind replace) (enterRule name rule kind replace) := by
  intro v w twins
  rw [enterRule_apply, enterRule_apply, twins.rules]
  cases Registry.enter .rules replace name (rule.map fun r => ⟨.custom r, kind⟩) v.rules with
  | error f => exact ⟨.error _, twins⟩
  | ok rules =>
    exact ⟨.ok rfl, { twins with rules := rfl, memory := fun _ _ found => nomatch found }⟩

theorem parallel_enterComparator (name : String) (c : Option Comparator) (replace : Bool) :
    Work.Parallel (Twins o P) Eq
      (enterComparator name c replace) (enterComparator name c replace) := by
  unfold enterComparator
  refine .bind .get fun v w twins => ?_
  rw [twins.comparators]
  cases Registry.enter .comparators replace name c v.comparators with
  | error f => exact .fail _
  | ok comparators => exact .set { twins with comparators := rfl }

theorem parallel_setLayout (layout : Layout) :
    Work.Parallel (Twins o P) Eq (setLayout layout) (setLayout layout) :=
  .modify fun _ _ twins => { twins with options := by rw [twins.options] }

/-- The options that bear on how a value is checked, and not on what a schema compiles to. -/
def runOptions : List String := ["stop_on_first_error", "allow_unknown_fields"]

theorem set?_of_mem_runOptions {name : String} (h : name ∈ runOptions) (value : Value) :
    (∃ fault, ∀ options : Options, options.set? name value = some (.error fault)) ∨
      ∃ change : Options → Options,
        (∀ options : Options, options.set? name value = some (.ok (change options))) ∧
        ∀ options : Options, (change options).tagName = options.tagName ∧
          (change options).mode = options.mode ∧
          change { options with caching := false } = { change options with caching := false } := by
  simp only [runOptions, List.mem_cons, List.not_mem_nil, or_false] at h
  cases truth : Options.truth value with
  | error fault =>
    left
    rcases h with rfl | rfl <;> exact ⟨fault, fun _ => by simp [Options.set?, truth, Except.map]⟩
  | ok b =>
    right
    rcases h with rfl | rfl
    · exact ⟨fun options => { options with stopAtFirst := b },
        fun _ => by simp [Options.set?, truth, Except.map], fun _ => ⟨rfl, rfl, rfl⟩⟩
    · exact ⟨fun options => { options with allowUnknown := b },
        fun _ => by simp [Options.set?, truth, Except.map], fun _ => ⟨rfl, rfl, rfl⟩⟩

theorem parallel_setOption {name : String} (h : name ∈ runOptions) (value : Value) :
    Work.Parallel (Twins o P) Eq (setOption name value) (setOption name value) := by
  unfold setOption
  refine .bind .get fun v w twins => ?_
  rcases set?_of_mem_runOptions h value with ⟨fault, refused⟩ | ⟨change, changed, kept⟩
  · rw [refused, refused]
    exact .fail _
  · rw [changed, changed]
    obtain ⟨tagName, mode, off⟩ := kept v.options
    exact .set { twins with
      options := by rw [twins.options, off]
      tagName := tagName.trans twins.tagName
      memory := by rw [mode]; exact twins.memory }

/-- Caching may be switched on and off where there is any. -/
theorem Twins.toggle (twins : Twins o P v w) (value : Value) :
    Twins o P (setOption "enable_caching" value v).2 w := by
  unfold setOption
  rw [Work.get_bind_apply]
  cases truth : Options.truth value with
  | error fault =>
    have refused : v.options.set? "enable_caching" value = some (.error fault) := by
      simp [Options.set?, truth, Except.map]
    rw [refused]
    exact twins
  | ok b =>
    have changed : v.options.set? "enable_caching" value =
        some (.ok { v.options with caching := b }) := by
      simp [Options.set?, truth, Except.map]
    rw [changed]
    exact { twins with }

end Conform.Validator
