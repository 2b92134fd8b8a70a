import Conform.Proofs.Schema.Inversion
import Conform.Proofs.Validator.Memory
import Conform.Proofs.Work.Outcome

/-! What work on records does to its validator: it may remember more schemas, and all else stays. It
fails for hard reasons only; findings are no failure before the record as a whole has been looked
at. -/
namespace Conform

/-- A failure that is no list of findings. -/
def Failure.Hard : Failure → Prop
  | .findings _ => False
  | _ => True

/-- Compiled under rules of a kind. -/
def Node.CompiledFrom (P : Rule → Prop) (n : Node) : Prop :=
  ∃ rules mode raw, (∀ key r, Listing.get? key rules = some r → P r) ∧
    (compileSchema rules mode raw).result = .ok n

namespace Node.CompiledFrom

variable {P : Rule → Prop} {n : Node}

theorem every_rule (h : n.CompiledFrom P) :
    n.Every fun m => ∀ e ∈ m.entries, ∀ r, e.rule = some r → P r := by
  obtain ⟨rules, mode, raw, registered, compiled⟩ := h
  exact (result_compileSchema_eq_ok_iff.mp compiled).every_rule registered

theorem every_usable (h : n.CompiledFrom P) :
    n.Every fun m => ∀ e ∈ m.entries, e.param.Usable := by
  obtain ⟨rules, mode, raw, -, compiled⟩ := h
  exact (result_compileSchema_eq_ok_iff.mp compiled).every fun _ _ h => h.usable

end Node.CompiledFrom

namespace Validator

/-- All rules that a validator may run are of a kind. What it remembers may have been compiled under
other rules than it has now. -/
structure HasRules (P : Rule → Prop) (v : Validator) : Prop where
  rules : ∀ key r, v.rules.get? key = some r → P r
  memory : ∀ key c, v.memory.get? key = some c → c.node.CompiledFrom P

variable {P : Rule → Prop} {α β : Type} {shared : Listing Checker}

/-- A validator that has compiled nothing yet, and whose rules are the built-in ones. -/
theorem hasRules_of_builtins {v : Validator} (rules : v.rules = Rule.builtins)
    (memory : v.memory = []) (builtin : ∀ k kind, P ⟨.builtin k, kind⟩) : v.HasRules P where
  rules key r h := by
    rw [rules] at h
    obtain ⟨k, -, same⟩ := List.mem_map.mp (Listing.mem_of_get? h)
    cases same
    exact builtin k k.kind
  memory key c h := by
    rw [memory] at h
    cases h

theorem HasRules.compiledFrom {v : Validator} (h : v.HasRules P) {a : Source} {mode : Mode}
    {n : Node} (makes : a.Makes v.rules mode n) : n.CompiledFrom P := by
  obtain ⟨d, -, compiled⟩ := makes
  exact ⟨v.rules, mode, d.raw, h.rules, compiled⟩

/-- The same validator but for what it remembers and how much it has compiled. -/
def Continues (v w : Validator) : Prop := ∃ memory made, w = { v with memory, made }

namespace Continues

variable {u v w : Validator}

theorem refl (v : Validator) : v.Continues v := ⟨v.memory, v.made, rfl⟩

theorem trans (first : u.Continues v) (second : v.Continues w) : u.Continues w := by
  obtain ⟨memory, made, rfl⟩ := first
  obtain ⟨memory', made', rfl⟩ := second
  exact ⟨memory', made', rfl⟩

theorem options (h : v.Continues w) : w.options = v.options := by
  obtain ⟨memory, made, rfl⟩ := h
  rfl

theorem rules (h : v.Continues w) : w.rules = v.rules := by
  obtain ⟨memory, made, rfl⟩ := h
  rfl

theorem hooks (h : v.Continues w) : w.hooks = v.hooks := by
  obtain ⟨memory, made, rfl⟩ := h
  rfl

theorem directivesOf (h : v.Continues w) (f : Field) : w.directivesOf f = v.directivesOf f := by
  obtain ⟨memory, made, rfl⟩ := h
  rfl

end Continues

theorem continues_remember (v : Validator) (key : Option String) (c : Compiled) (made : Nat) :
    v.Continues { v.remember key c with made } := by
  unfold remember
  split
  · split
    · exact ⟨_, _, rfl⟩
    · exact ⟨_, _, rfl⟩
  · exact ⟨_, _, rfl⟩

theorem HasRules.remember {v : Validator} (h : v.HasRules P) (key : Option String) {c : Compiled}
    (made : c.node.CompiledFrom P) (i : Nat) : HasRules P { v.remember key c with made := i } where
  rules := by
    obtain ⟨memory, made, same⟩ := continues_remember v key c i
    rw [same]
    exact h.rules
  memory name d found := by
    rcases get?_remember found with before | ⟨-, rfl⟩
    · exact h.memory name d before
    · exact made

/-- A property of work that passes from parts of work to what they make up. -/
structure Composes (K : ∀ {α : Type}, Validating α → Prop) : Prop where
  pure {α : Type} (a : α) : K (Pure.pure a)
  fault {α : Type} (f : Fault) : K (Validator.fault f : Validating α)
  bind {α β : Type} {x : Validating α} {f : α → Validating β} (first : K x)
    (next : ∀ a, K (f a)) : K (x >>= f)
  get_bind {β : Type} {f : Validator → Validating β} (next : ∀ v, K (f v)) : K (Work.get >>= f)

namespace Composes

variable {K : ∀ {α : Type}, Validating α → Prop} {descend : List Field → Validating (List Finding)}

theorem checkDirectives (composes : Composes K) (descends : ∀ fields, K (descend fields))
    (validates : ∀ value directives root,
      K (validateWith shared value (tagSource directives value) root))
    (path : String) (directives : Listing Value) (value : Value) :
    K (checkDirectives shared descend path directives value) := by
  unfold Validator.checkDirectives
  apply composes.get_bind
  intro v
  dsimp only
  split
  · exact composes.pure _
  · split
    · exact composes.pure _
    · split
      · exact composes.bind (descends _) fun found => composes.pure _
      · split
        · exact composes.pure _
        · exact validates _ _ path

theorem checkField (composes : Composes K) (descends : ∀ fields, K (descend fields))
    (validates : ∀ value directives root,
      K (validateWith shared value (tagSource directives value) root)) (f : Field) :
    K (checkField shared descend f) := by
  unfold Validator.checkField
  apply composes.get_bind
  intro v
  dsimp only
  split
  · exact composes.pure _
  · split
    · exact composes.fault _
    · exact composes.pure _
    · exact composes.checkDirectives descends validates f.name _ _

theorem checkFields (composes : Composes K) (descends : ∀ fields, K (descend fields))
    (validates : ∀ value directives root,
      K (validateWith shared value (tagSource directives value) root)) (fields : List Field) :
    K (checkFields shared descend fields) := by
  induction fields with
  | nil => exact composes.pure _
  | cons f fs ih =>
    unfold Validator.checkFields
    apply composes.bind (composes.checkField descends validates f)
    intro found
    apply composes.get_bind
    intro v
    split
    · exact composes.pure _
    · exact composes.bind ih fun more => composes.pure _

theorem checkRecord (composes : Composes K)
    (validates : ∀ value directives root,
      K (validateWith shared value (tagSource directives value) root))
    (depth : Nat) (fields : List Field) : K (checkRecord shared depth fields) := by
  induction depth generalizing fields with
  | zero => exact composes.fault _
  | succ depth ih => exact composes.checkFields ih validates fields

end Composes

/-- Work that changes nothing but the memory, brings no rules of another kind into it, and does not
fail by findings. -/
structure Orderly (x : Validating α) : Prop where
  continues (v : Validator) : v.Continues (x.outcome v).2
  hasRules (v : Validator) (P : Rule → Prop) : v.HasRules P → (x.outcome v).2.HasRules P
  hard (v : Validator) (e : Failure) : (x.outcome v).1 = .error e → e.Hard

namespace Orderly

theorem pure (a : α) : Orderly (Pure.pure a) where
  continues v := .refl v
  hasRules _ _ h := h
  hard _ _ h := nomatch h

theorem fault (f : Fault) : Orderly (fault f : Validating α) where
  continues v := .refl v
  hasRules _ _ h := h
  hard _ _ h := by
    cases h
    trivial

theorem bind {x : Validating α} {f : α → Validating β} (first : Orderly x)
    (next : ∀ a, Orderly (f a)) : Orderly (x >>= f) where
  continues v := by
    have step := first.continues v
    rw [Work.outcome_bind]
    generalize x.outcome v = y at step
    obtain ⟨_ | a, w⟩ := y
    · exact step
    · exact step.trans ((next a).continues w)
  hasRules v P h := by
    have step := first.hasRules v P h
    rw [Work.outcome_bind]
    generalize x.outcome v = y at step
    obtain ⟨_ | a, w⟩ := y
    · exact step
    · exact (next a).hasRules w P step
  hard v e h := by
    have step := first.hard v
    rw [Work.outcome_bind] at h
    generalize x.outcome v = y at step h
    obtain ⟨d | a, w⟩ := y
    · cases h
      exact step e rfl
    · exact (next a).hard w e h

theorem get_bind {f : Validator → Validating β} (next : ∀ v, Orderly (f v)) :
    Orderly (Work.get >>= f) where
  continues v := (next v).continues v
  hasRules v := (next v).hasRules v
  hard v := (next v).hard v

end Orderly

theorem composes_orderly : Composes @Orderly := ⟨.pure, .fault, .bind, .get_bind⟩

theorem hard_of_compileAnew {purpose : Purpose} {a : Source} {v : Validator} {e : Failure}
    (h : compileAnew purpose a v = .error e) : e.Hard := by
  unfold compileAnew at h
  split at h
  · cases h
    trivial
  · next d _ =>
    cases hx : (compileSchema v.rules v.options.mode d.raw).result with
    | ok n =>
      rw [hx] at h
      cases h
    | error f =>
      rw [hx] at h
      cases h
      cases f <;> trivial

variable {purpose : Purpose} {a : Source}

theorem outcome_compileFor_of_remembered {v : Validator} {c : Compiled}
    (h : v.remembered? a.memoText? = some c) : (compileFor purpose a).outcome v = (.ok c, v) := by
  unfold Work.outcome
  rw [compileFor_of_remembered h]
  rfl

theorem outcome_compileFor_of_not_remembered {v : Validator}
    (h : v.remembered? a.memoText? = none) :
    (compileFor purpose a).outcome v = match compileAnew purpose a v with
      | .error e => (.error e, v)
      | .ok n => (.ok ⟨v.made, n⟩,
          { v.remember a.memoText? ⟨v.made, n⟩ with made := v.made + 1 }) := by
  unfold Work.outcome
  cases anew : compileAnew purpose a v with
  | error e =>
    obtain ⟨result, state⟩ := compileFor_of_error h anew
    rw [result, state]
  | ok n =>
    obtain ⟨result, state⟩ := compileFor_of_ok h anew
    rw [result, state]

/-- All that compiling can do: answer from memory, fail and leave everything as it is, or make a tree
and perhaps remember it. -/
theorem outcome_compileFor_cases (purpose : Purpose) (a : Source) (v : Validator) :
    (∃ key c, v.memory.get? key = some c ∧ (compileFor purpose a).outcome v = (.ok c, v)) ∨
    (∃ e : Failure, e.Hard ∧ (compileFor purpose a).outcome v = (.error e, v)) ∨
    ∃ n, a.Makes v.rules v.options.mode n ∧ (compileFor purpose a).outcome v =
      (.ok ⟨v.made, n⟩, { v.remember a.memoText? ⟨v.made, n⟩ with made := v.made + 1 }) := by
  cases remembered : v.remembered? a.memoText? with
  | some c =>
    obtain ⟨key, -, found⟩ := exists_of_remembered remembered
    exact .inl ⟨key, c, found, outcome_compileFor_of_remembered remembered⟩
  | none =>
    rw [outcome_compileFor_of_not_remembered remembered]
    cases anew : compileAnew purpose a v with
    | error e => exact .inr (.inl ⟨e, hard_of_compileAnew anew, rfl⟩)
    | ok n => exact .inr (.inr ⟨n, compileAnew_eq_ok_iff.mp anew, rfl⟩)

theorem orderly_compileFor (purpose : Purpose) (a : Source) : Orderly (compileFor purpose a) where
  continues v := by
    rcases outcome_compileFor_cases purpose a v with
      ⟨_, c, -, outcome⟩ | ⟨e, -, outcome⟩ | ⟨n, -, outcome⟩
    · rw [outcome]
      exact .refl v
    · rw [outcome]
      exact .refl v
    · rw [outcome]
      exact continues_remember v _ _ _
  hasRules v P h := by
    rcases outcome_compileFor_cases purpose a v with
      ⟨_, c, -, outcome⟩ | ⟨e, -, outcome⟩ | ⟨n, makes, outcome⟩
    · rw [outcome]
      exact h
    · rw [outcome]
      exact h
    · rw [outcome]
      exact h.remember a.memoText? (h.compiledFrom makes) (v.made + 1)
  hard v e failed := by
    rcases outcome_compileFor_cases purpose a v with
      ⟨_, c, -, outcome⟩ | ⟨d, hard, outcome⟩ | ⟨n, -, outcome⟩
    · rw [outcome] at failed
      cases failed
    · rw [outcome] at failed
      cases failed
      exact hard
    · rw [outcome] at failed
      cases failed

/-- Whatever is compiled, now or before, is compiled from rules of the kind. -/
theorem compiledFrom_of_compileFor {v w : Validator} {c : Compiled} (h : v.HasRules P)
    (compiled : (compileFor purpose a).outcome v = (.ok c, w)) : c.node.CompiledFrom P := by
  rcases outcome_compileFor_cases purpose a v with
    ⟨key, d, found, outcome⟩ | ⟨e, -, outcome⟩ | ⟨n, makes, outcome⟩
  · cases outcome.symm.trans compiled
    exact h.memory key _ found
  · cases outcome.symm.trans compiled
  · cases outcome.symm.trans compiled
    exact h.compiledFrom makes

theorem outcome_validate (shared : Listing Checker) (value : Value) (n : Node) (root : String)
    (v : Validator) : (validate shared value n root).outcome v =
      ((Rules.evaluate ⟨v.frame shared, value, .ofString root⟩ n).result.mapError .fault, v) := rfl

theorem orderly_validate (value : Value) (n : Node) (root : String) :
    Orderly (validate shared value n root) where
  continues v := .refl v
  hasRules _ _ h := h
  hard v e h := by
    rw [outcome_validate] at h
    generalize (Rules.evaluate ⟨v.frame shared, value, .ofString root⟩ n).result = x at h
    cases x with
    | ok found => cases h
    | error f =>
      cases h
      trivial

theorem orderly_validateWith (value : Value) (a : Source) (root : String) :
    Orderly (validateWith shared value a root) :=
  (orderly_compileFor .compiling a).bind fun c => orderly_validate value c.node root

section

variable {descend : List Field → Validating (List Finding)}

theorem orderly_checkField (shared : Listing Checker)
    (descends : ∀ fields, Orderly (descend fields)) (f : Field) :
    Orderly (checkField shared descend f) :=
  composes_orderly.checkField descends (fun _ _ => orderly_validateWith _ _) f

theorem orderly_checkFields (shared : Listing Checker)
    (descends : ∀ fields, Orderly (descend fields)) (fields : List Field) :
    Orderly (checkFields shared descend fields) :=
  composes_orderly.checkFields descends (fun _ _ => orderly_validateWith _ _) fields

theorem outcome_checkFields_cons (f : Field) (fs : List Field) (v : Validator) :
    (checkFields shared descend (f :: fs)).outcome v =
      match (checkField shared descend f).outcome v with
      | (.error e, w) => (.error e, w)
      | (.ok found, w) =>
        if w.options.stopAtFirst && !found.isEmpty then (.ok found, w)
        else match (checkFields shared descend fs).outcome w with
          | (.error e, u) => (.error e, u)
          | (.ok more, u) => (.ok (found ++ more), u) := by
  rw [checkFields, Work.outcome_bind]
  generalize (checkField shared descend f).outcome v = a
  obtain ⟨e | found, w⟩ := a
  · rfl
  · dsimp only
    rw [Work.outcome_get_bind]
    split
    · rfl
    · rw [Work.outcome_bind]
      generalize (checkFields shared descend fs).outcome w = b
      obtain ⟨e | more, u⟩ := b
      · rfl
      · rfl

end

theorem orderly_checkRecord (shared : Listing Checker) (depth : Nat) (fields : List Field) :
    Orderly (checkRecord shared depth fields) :=
  composes_orderly.checkRecord (fun _ _ => orderly_validateWith _ _) depth fields

end Validator

end Conform
