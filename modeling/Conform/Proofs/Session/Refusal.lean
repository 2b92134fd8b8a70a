import Conform.Proofs.Session.Effect

/-! Sessions that refuse a schema, whatever it is asked for. -/
namespace Conform

/-- The requests that come to compile a schema, and what they do so for: to compile it, to validate
against it, and to validate data that can be read. -/
inductive Request.Obtains (a : Source) : Purpose → Request → Prop
  | compile (handle : String) : Obtains a .compiling (.compile a handle)
  | validateWith (value : Value) (root : String) : Obtains a .compiling (.validateWith value a root)
  | validateText {data value : Value} (read : Validator.readData data = .ok value) :
    Obtains a .validating (.validateText data a)

/-- Data that can be read. -/
def fiveText : Value := .string (String.ofList ['5'])

theorem read_fiveText : Validator.readData fiveText = .ok (.ofInt 5) := by
  have parsed : Json.parse (String.ofList ['5']) = .ok (.ofInt 5) := by
    rw [Json.parse, String.toList_ofList]
    rfl
  simp only [fiveText, Validator.readData, parsed]

namespace Validator

variable {purpose : Purpose} {a : Source} {v w : Validator} {e : Failure} {shared : Listing Checker}

theorem outcome_validateWith_of_error (value : Value) (root : String)
    (failed : (compileFor .compiling a).outcome v = (.error e, w)) :
    (validateWith shared value a root).outcome v = (.error e, w) :=
  Work.outcome_bind_of_error failed

theorem outcome_validateText_of_error {data value : Value} (read : readData data = .ok value)
    (failed : (compileFor .validating a).outcome v = (.error e, w)) :
    (validateText shared data a).outcome v = (.error e, w) := by
  unfold validateText
  rw [read]
  exact Work.outcome_bind_of_error failed

/-- Validation leaves the validator as compilation has left it. -/
theorem outcome_bind_validate_snd (x : Validating Compiled) (value : Value) (root : String)
    (v : Validator) :
    ((x >>= fun c => validate shared value c.node root).outcome v).2 = (x.outcome v).2 := by
  rw [Work.outcome_bind]
  generalize x.outcome v = y
  obtain ⟨_ | c, w⟩ := y <;> rfl

theorem outcome_validateText_of_remembered {data value : Value} {c : Compiled}
    (read : readData data = .ok value) (remembered : v.remembered? a.memoText? = some c) :
    (validateText shared data a).outcome v =
      (validate shared value c.node rootName).outcome v := by
  unfold validateText
  rw [read]
  exact Work.outcome_bind_of_ok (outcome_compileFor_of_remembered remembered)

end Validator

namespace Session

open Validator

/-- Whichever request comes to a schema, it fails in one of the given ways, and the session stays as
it is. -/
def Refuses (s : Session) (a : Source) (F : Purpose → Failure → Prop) : Prop :=
  ∀ purpose r, r.Obtains a purpose → ∃ e, F purpose e ∧
    (perform .own r).outcome s = (.error e, s)

variable {s : Session} {a b : Source} {r : Request} {purpose : Purpose} {e : Failure}
  {F : Purpose → Failure → Prop}

theorem outcome_perform_of_error (obtains : r.Obtains a purpose)
    (failed : (compileFor purpose a).outcome s.own = (.error e, s.own)) :
    (perform .own r).outcome s = (.error e, s) := by
  cases obtains with
  | compile handle =>
    refine Work.outcome_bind_of_error ?_
    rw [outcome_through, Validator.compile, failed]
  | validateWith value root =>
    refine Work.outcome_bind_of_error ?_
    rw [outcome_through, outcome_validateWith_of_error value root failed]
  | validateText read =>
    refine Work.outcome_bind_of_error ?_
    rw [outcome_through, outcome_validateText_of_error read failed]

/-- Whatever else they are for, these requests leave the memory that compilation leaves. -/
theorem own_perform_of_obtains (obtains : r.Obtains a purpose) (s : Session) :
    (perform .own r s).2.own = ((compileFor purpose a).outcome s.own).2 := by
  show ((perform .own r).outcome s).2.own = _
  cases obtains with
  | compile handle => exact (outcome_compileAs a handle s).2
  | validateWith value root =>
    rw [perform, own_keep]
    exact outcome_bind_validate_snd _ value root s.own
  | @validateText data value read =>
    rw [perform, own_keep, outcome_through]
    unfold Validator.validateText
    rw [read]
    exact outcome_bind_validate_snd _ value rootName s.own

theorem continues_of_obtains (obtains : r.Obtains a purpose) (s : Session) :
    s.own.Continues (perform .own r s).2.own := by
  rw [own_perform_of_obtains obtains]
  exact (orderly_compileFor purpose a).continues s.own

/-- A schema is refused that is not remembered and cannot be compiled. -/
theorem refuses_of_compileAnew (anew : s.own.remembered? a.memoText? = none)
    (failed : ∀ purpose, ∃ e, F purpose e ∧ compileAnew purpose a s.own = .error e) :
    s.Refuses a F := by
  intro purpose r obtains
  obtain ⟨e, foreseen, failed⟩ := failed purpose
  refine ⟨e, foreseen, outcome_perform_of_error obtains ?_⟩
  rw [outcome_compileFor_of_not_remembered anew, failed]

/-- What is remembered is the answer. -/
theorem answer_compile_of_remembered {c : Compiled} (handle : String)
    (remembered : s.own.remembered? a.memoText? = some c) :
    ∃ i, ((perform .own (.compile a handle)).outcome s).1 = .ok (.compiled i c.node) := by
  obtain ⟨⟨i, answer⟩, -⟩ := outcome_compileAs a handle s
  refine ⟨i, ?_⟩
  rw [perform, answer, Validator.compile, outcome_compileFor_of_remembered remembered]
  rfl

theorem Refuses.not_remembered (h : s.Refuses a F) : s.own.remembered? a.memoText? = none := by
  cases remembered : s.own.remembered? a.memoText? with
  | none => rfl
  | some c =>
    obtain ⟨e, -, failed⟩ := h .compiling _ (.compile "")
    obtain ⟨i, answered⟩ := answer_compile_of_remembered "" remembered
    rw [failed] at answered
    cases answered

/-- A session that remembers, with the given rules in the given mode. -/
def remembering (rules : Listing Rule) (mode : Mode) : Session :=
  { own := { options := { caching := true, mode }, rules } }

theorem remembered?_remembering (rules : Listing Rule) (mode : Mode) (key : Option String) :
    (remembering rules mode).own.remembered? key = none := by
  cases key <;> rfl

/-- While caching is on, what a request makes is remembered for all sources of its text. -/
theorem remembered_of_obtains (caching : s.own.options.caching = true) {key : String}
    (known : a.memoText? = some key) (known' : b.memoText? = some key)
    (anew : s.own.remembered? a.memoText? = none) {n : Node}
    (makes : a.Makes s.own.rules s.own.options.mode n) (obtains : r.Obtains a purpose) :
    (perform .own r s).2.own.remembered? b.memoText? = some ⟨s.own.made, n⟩ := by
  rw [own_perform_of_obtains obtains]
  exact remembered_of_compileFor caching known known' anew makes

end Session

end Conform
