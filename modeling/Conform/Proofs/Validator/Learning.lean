import Conform.Proofs.Validator.Conduct

/-! What work leaves in the memory: what was there before, and what the sources that it asks for
make, each under its own text. -/
namespace Conform

/-- A schema that a tag makes for a value. -/
def Source.OfTag (a : Source) : Prop := ∃ directives value, a = Validator.tagSource directives value

namespace Validator

/-- What some source of a kind makes for a validator, under the source's text. -/
def MadeOf (Q : Source → Prop) (v : Validator) (key : String) (n : Node) : Prop :=
  ∃ a, Q a ∧ a.memoText? = some key ∧ a.Makes v.rules v.options.mode n

/-- The same validator, but that it may have come to remember what sources of a kind make. -/
structure Learnt (Q : Source → Prop) (v w : Validator) : Prop where
  continues : v.Continues w
  memory (key : String) (c : Compiled) : w.memory.get? key = some c →
    v.memory.get? key = some c ∨ v.MadeOf Q key c.node

variable {Q Q' : Source → Prop} {α β : Type} {u v w : Validator} {a : Source} {purpose : Purpose}
  {shared : Listing Checker}

namespace Learnt

theorem refl (v : Validator) : Learnt Q v v := ⟨.refl v, fun _ _ => .inl⟩

theorem trans (first : Learnt Q u v) (second : Learnt Q v w) : Learnt Q u w where
  continues := first.continues.trans second.continues
  memory key c found := by
    rcases second.memory key c found with before | made
    · exact first.memory key c before
    · unfold MadeOf at made
      rw [first.continues.rules, first.continues.options] at made
      exact .inr made

theorem imp (h : Learnt Q v w) (wider : ∀ a, Q a → Q' a) : Learnt Q' v w where
  continues := h.continues
  memory key c found :=
    (h.memory key c found).imp_right fun ⟨a, ha, known, makes⟩ => ⟨a, wider a ha, known, makes⟩

end Learnt

/-- Work that changes nothing but the memory, and adds to it only what sources of a kind make. -/
def Learns (Q : Source → Prop) (x : Validating α) : Prop := ∀ v, Learnt Q v (x.outcome v).2

namespace Learns

theorem pure (a : α) : Learns Q (Pure.pure a) := fun v => .refl v

theorem fail (e : Failure) : Learns Q (Work.fail e : Validating α) := fun v => .refl v

theorem bind {x : Validating α} {f : α → Validating β} (first : Learns Q x)
    (next : ∀ a, Learns Q (f a)) : Learns Q (x >>= f) := by
  intro v
  have step := first v
  rw [Work.outcome_bind]
  generalize x.outcome v = y at step
  obtain ⟨_ | a, w⟩ := y
  · exact step
  · exact step.trans (next a w)

end Learns

theorem composes_learns : Composes fun {_} => Learns Q where
  pure := .pure
  fault _ := .fail _
  bind := .bind
  get_bind next v := next v v

theorem learns_compileFor (purpose : Purpose) (asked : Q a) : Learns Q (compileFor purpose a) := by
  intro v
  rcases outcome_compileFor_cases purpose a v with
    ⟨_, c, -, outcome⟩ | ⟨e, -, outcome⟩ | ⟨n, makes, outcome⟩
  · rw [outcome]
    exact .refl v
  · rw [outcome]
    exact .refl v
  · rw [outcome]
    refine ⟨continues_remember v _ _ _, fun key c found => ?_⟩
    rcases get?_remember found with before | ⟨known, rfl⟩
    · exact .inl before
    · exact .inr ⟨a, asked, known, makes⟩

theorem learns_validate (value : Value) (n : Node) (root : String) :
    Learns Q (validate shared value n root) := fun v => .refl v

theorem learns_validateWith (value : Value) (asked : Q a) (root : String) :
    Learns Q (validateWith shared value a root) :=
  (learns_compileFor .compiling asked).bind fun c => learns_validate value c.node root

theorem learns_validateText (data : Value) (asked : Q a) :
    Learns Q (validateText shared data a) := by
  unfold validateText
  cases readData data with
  | error cause => exact .fail _
  | ok value =>
    exact (learns_compileFor .validating asked).bind fun c => learns_validate value c.node rootName

theorem learns_raiseFindings (found : List Finding) : Learns Q (raiseFindings found) := by
  unfold raiseFindings
  split
  · exact .pure _
  · exact .fail _

theorem learns_validateRecord (shared : Listing Checker) (value : Value) :
    Learns Source.OfTag (validateRecord shared value) := by
  unfold validateRecord validateRecordTo
  split
  · refine .bind (composes_learns.checkRecord ?_ _ _) fun found => learns_raiseFindings found
    exact fun value directives root => learns_validateWith value ⟨directives, value, rfl⟩ root
  · exact .fail _

theorem learns_validateVariable (shared : Listing Checker) (value : Value) (tag : String) :
    Learns Source.OfTag (validateVariable shared value tag) := by
  unfold validateVariable
  dsimp only
  split
  · exact learns_raiseFindings _
  · split
    · exact .pure _
    · exact (learns_validateWith value ⟨_, value, rfl⟩ _).bind fun found =>
        learns_raiseFindings found

end Validator

end Conform
