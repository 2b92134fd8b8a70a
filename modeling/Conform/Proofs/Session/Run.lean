import Conform.Proofs.Session.Twins
import Mathlib.Data.List.Forall2

/-! Runs of a session, with caching switched on and off in between, beside runs of a session that
never caches. -/
namespace Conform

/-- A move in a session: a request, or a switch of caching, whose answer does not count. -/
inductive Move
  | ask (r : Request)
  | caching (value : Value)

def Move.asks : Move → Bool
  | .ask _ => true
  | .caching _ => false

namespace Session

/-- The answers to the requests among some moves. -/
def answers (s : Session) : List Move → List (Except Failure Reply)
  | [] => []
  | .ask r :: moves => (perform .own r s).1.result :: answers (perform .own r s).2 moves
  | .caching value :: moves =>
    answers (perform .own (.setOption "enable_caching" value) s).2 moves

def withoutCaching (s : Session) : Session :=
  { s with own := { s.own with options := { s.own.options with caching := false } } }

variable {E : Node → Node → Prop} {P : Source → Prop} {o : Validator} {s t : Session}

/-- As long as nothing is remembered, sessions are twins from the start. -/
theorem twins_withoutCaching (likeness : Likeness E) (fresh : s.own.memory = []) :
    Twins E s.own P s s.withoutCaching where
  own := {
    options := rfl
    rules := rfl
    comparators := rfl
    formats := rfl
    hooks := ⟨rfl, rfl⟩
    tagName := rfl
    memory := by
      intro key c found
      rw [fresh] at found
      cases found }
  formats := rfl
  last := rfl
  handles name := by
    show Option.Rel E (s.handles.get? name) (s.handles.get? name)
    cases s.handles.get? name with
    | none => exact .none
    | some n => exact .some (likeness.refl n)

theorem quietly_snd (w : Answering Unit) (s : Session) : (quietly w s).2 = (w s).2 := by
  show (Work.bind w _ s).2 = _
  unfold Work.bind
  rcases w s with ⟨⟨e | _, log⟩, s'⟩ <;> rfl

theorem Twins.switched (twins : Twins E o P s t) (value : Value) :
    Twins E o P (perform .own (.setOption "enable_caching" value) s).2 t := by
  have own := twins.own.toggle value
  have same : (perform .own (.setOption "enable_caching" value) s).2 =
      { s with own := (Validator.setOption "enable_caching" value s.own).2 } :=
    quietly_snd _ s
  rw [same]
  exact { twins with own }

/-- Twins answer alike for as long as they are asked. -/
theorem answers_alike (likeness : Likeness E) (coherent : Coherent E P) (moves : List Move)
    (twins : Twins E o P s t) (within : ∀ r, .ask r ∈ moves → r.Within o P) :
    List.Forall₂ (Agree (Reply.Alike E)) (s.answers moves)
      (t.answers (moves.filter Move.asks)) := by
  induction moves generalizing s t with
  | nil => exact .nil
  | cons move moves ih =>
    have later (r : Request) (mem : .ask r ∈ moves) := within r (.tail _ mem)
    cases move with
    | ask r =>
      obtain ⟨agree, kept⟩ := parallel_perform likeness coherent (within r (.head _)) s t twins
      exact .cons agree (ih kept later)
    | caching value => exact ih (twins.switched value) later

end Session

end Conform
