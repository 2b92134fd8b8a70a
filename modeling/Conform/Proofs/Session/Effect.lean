import Conform.Proofs.Session.Run
import Conform.Proofs.Validator.Learning

/-! What one request, and then a run of them, does to what a validator remembers: little else than
to learn what the request asks for, or to forget everything. -/
namespace Conform

theorem Mode.name_of_ofName? {s : String} {m : Mode} (h : ofName? s = some m) : m.name = s := by
  simpa using List.find?_some h

/-- An option leaves the mode alone, unless it is the mode. -/
theorem Options.mode_of_set? {o o' : Options} {name : String} {value : Value}
    (h : o.set? name value = some (.ok o')) :
    o'.mode = o.mode ∨ name = "validation_mode" ∧ value = .string o'.mode.name := by
  have mapped {α : Type} {x : Except OptionFault α} {f : α → Options}
      (h : some (x.map f) = some (.ok o')) (keeps : ∀ a, (f a).mode = o.mode) :
      o'.mode = o.mode := by
    cases x with
    | error _ => cases h
    | ok a =>
      cases h
      exact keeps a
  unfold set? at h
  split at h
  case h_2 =>
    unfold memberOf at h
    split at h
    · next mode found =>
      obtain ⟨s, text, named⟩ := Option.bind_eq_some_iff.mp found
      cases h
      cases value
      case string =>
        cases text
        exact .inr ⟨rfl, by rw [Mode.name_of_ofName? named]⟩
      all_goals cases text
    · cases h
  case h_8 => cases h
  all_goals exact .inl (mapped h fun _ => rfl)

/-- The sources that a request has compiled. Records and variables ask for what their tags make. -/
def Request.AsksFor : Request → Source → Prop
  | .validateText _ b, a | .validateWith _ b _, a | .compile b _, a => a = b
  | .validateVariable .., a | .validateRecord _, a => a.OfTag
  | _, _ => False

/-- No name loses its entry when another is entered. -/
theorem Registry.isSome_of_enter {α : Type} {r : Register} {replace : Bool} {name key : String}
    {entry : Option α} {l l' : Listing α} (entered : enter r replace name entry l = .ok l')
    (known : (l.get? key).isSome) : (l'.get? key).isSome := by
  unfold enter at entered
  split at entered
  · cases entered
  split at entered
  · cases entered
  split at entered
  · cases entered
  cases entered
  by_cases same : key = name
  · rw [same, Listing.get?_put_self]
    rfl
  · rw [Listing.get?_put_of_ne same]
    exact known

namespace Session

open Validator

/-- All that a request can do to the rules, the mode and the memory of a validator. -/
inductive Effect (r : Request) (v w : Validator) : Prop
  | learns (rules : w.rules = v.rules) (mode : w.options.mode = v.options.mode)
    (memory : ∀ key c, w.memory.get? key = some c →
      v.memory.get? key = some c ∨ v.MadeOf r.AsksFor key c.node)
  | forgets (memory : w.memory = [])
    (rules : ∀ name, (v.rules.get? name).isSome → (w.rules.get? name).isSome)
  /-- The mode alone changes, by way of the options. -/
  | switches (asked : r = .setOption "validation_mode" (.string w.options.mode.name))
    (rules : w.rules = v.rules) (memory : w.memory = v.memory)
  | drops (asked : r = .clearRules) (memory : w.memory = v.memory)

namespace Effect

variable {r : Request} {v w : Validator}

theorem of_learnt {Q : Source → Prop} (h : Learnt Q v w) (asks : ∀ a, Q a → r.AsksFor a) :
    Effect r v w :=
  .learns h.continues.rules (by rw [h.continues.options]) (h.imp asks).memory

theorem of_same (rules : w.rules = v.rules) (mode : w.options.mode = v.options.mode)
    (memory : w.memory = v.memory) : Effect r v w :=
  .learns rules mode fun _ _ found => .inl (memory ▸ found)

theorem refl (v : Validator) : Effect r v v := .of_same rfl rfl rfl

end Effect

theorem outcome_through {α : Type} (f : Listing Checker → Validating α) (s : Session) :
    (through .own f).outcome s =
      (((f s.formats).outcome s.own).1, { s with own := ((f s.formats).outcome s.own).2 }) := rfl

/-- Findings that are kept are the answer, and of the validator nothing is touched. -/
theorem outcome_keep (w : Answering (List Finding)) (s : Session) :
    ((keep w).outcome s).1 = (w.outcome s).1.map .outcome ∧
      ((keep w).outcome s).2.own = (w.outcome s).2.own := by
  rw [keep, Work.outcome_bind]
  generalize w.outcome s = y
  obtain ⟨_ | found, t⟩ := y
  · exact ⟨rfl, rfl⟩
  · exact ⟨rfl, rfl⟩

theorem own_keep (w : Answering (List Finding)) (s : Session) :
    ((keep w).outcome s).2.own = (w.outcome s).2.own := (outcome_keep w s).2

theorem own_quietly (w : Answering Unit) (s : Session) :
    ((quietly w).outcome s).2.own = (w.outcome s).2.own :=
  congrArg own (quietly_snd w s)

/-- What is compiled is the answer, under a number. -/
theorem outcome_compileAs (a : Source) (handle : String) (s : Session) :
    (∃ i, ((compileAs .own a handle).outcome s).1 =
      ((Validator.compile a).outcome s.own).1.map fun c => .compiled i c.node) ∧
    ((compileAs .own a handle).outcome s).2.own = ((Validator.compile a).outcome s.own).2 := by
  rw [compileAs, Work.outcome_bind, outcome_through]
  generalize (Validator.compile a).outcome s.own = y
  obtain ⟨_ | c, v⟩ := y
  · exact ⟨⟨0, rfl⟩, rfl⟩
  · obtain ⟨seen, numbered⟩ := number_snd { s with own := v } ⟨none, c.serial⟩
    exact ⟨⟨_, rfl⟩, congrArg own numbered⟩

theorem own_validateHandle (value : Value) (handle root : String) (s : Session) :
    ((validateHandle .own value handle root).outcome s).2.own = s.own := by
  rw [validateHandle, Work.outcome_get_bind]
  split
  · exact own_keep _ s
  · rfl

theorem own_enterFormat (name : String) (c : Option Checker) (s : Session) : ∃ formats,
    ((enterFormat .own name c).outcome s).2.own = { s.own with formats } := by
  rw [enterFormat, Work.outcome_get_bind]
  split
  · rw [Work.outcome_ofExcept_bind]
    split
    · exact ⟨_, rfl⟩
    · exact ⟨_, rfl⟩
  · rw [Work.outcome_ofExcept_bind]
    split
    · exact ⟨_, rfl⟩
    · exact ⟨_, rfl⟩

variable {r : Request}

theorem effect_enterRule (name : String) (rule : Option CustomRule) (kind : Kind) (replace : Bool)
    (v : Validator) : Effect r v ((enterRule name rule kind replace).outcome v).2 := by
  unfold Work.outcome
  rw [enterRule_apply]
  cases entered : Registry.enter .rules replace name (rule.map fun r => ⟨.custom r, kind⟩) v.rules with
  | error f => exact .refl v
  | ok rules => exact .forgets rfl fun key known => Registry.isSome_of_enter entered known

theorem own_enterComparator (name : String) (c : Option Comparator) (replace : Bool)
    (v : Validator) : ∃ comparators,
      ((enterComparator name c replace).outcome v).2 = { v with comparators } := by
  rw [enterComparator, Work.outcome_get_bind]
  split
  · exact ⟨_, rfl⟩
  · exact ⟨_, rfl⟩

theorem effect_setOption (name : String) (value : Value) (v : Validator) :
    Effect (.setOption name value) v ((setOption name value).outcome v).2 := by
  rw [setOption, Work.outcome_get_bind]
  split
  · next options set =>
    rcases Options.mode_of_set? set with mode | ⟨rfl, rfl⟩
    · exact .of_same rfl mode rfl
    · exact .switches rfl rfl rfl
  · exact .refl v
  · exact .refl v

theorem effect_perform (r : Request) (s : Session) :
    Effect r s.own (perform .own r s).2.own := by
  show Effect r s.own ((perform .own r).outcome s).2.own
  cases r with
  | validateText data a =>
    rw [perform, own_keep]
    exact .of_learnt (learns_validateText data rfl s.own) fun _ => Eq.symm
  | validateWith value a root =>
    rw [perform, own_keep]
    exact .of_learnt (learns_validateWith value rfl root s.own) fun _ => Eq.symm
  | compile a handle =>
    rw [perform, (outcome_compileAs a handle s).2]
    exact .of_learnt (learns_compileFor .compiling rfl s.own) fun _ => Eq.symm
  | validate value handle root =>
    rw [perform, own_validateHandle]
    exact .refl _
  | validateVariable value tag =>
    rw [perform, own_quietly]
    exact .of_learnt (learns_validateVariable _ value tag s.own) fun _ => id
  | validateRecord value =>
    rw [perform, own_quietly]
    exact .of_learnt (learns_validateRecord _ value s.own) fun _ => id
  | enterRule name rule kind replace =>
    rw [perform, Work.outcome_ofExcept_bind]
    split
    · dsimp only
      rw [own_quietly]
      exact effect_enterRule name rule _ replace s.own
    · exact .refl _
  | setMode mode =>
    rw [perform, Work.outcome_ofExcept_bind]
    split
    · exact .forgets rfl fun _ known => known
    · exact .refl _
  | setLayout layout =>
    rw [perform, Work.outcome_ofExcept_bind]
    split
    · exact .of_same rfl rfl rfl
    · exact .refl _
  | setOption name value =>
    rw [perform, own_quietly]
    exact effect_setOption name value s.own
  | enterComparator name c replace =>
    rw [perform, own_quietly, outcome_through]
    obtain ⟨comparators, own⟩ := own_enterComparator name c (Target.own == .own && replace) s.own
    rw [own]
    exact .of_same rfl rfl rfl
  | enterFormat name c =>
    rw [perform, own_quietly]
    obtain ⟨formats, own⟩ := own_enterFormat name c s
    rw [own]
    exact .of_same rfl rfl rfl
  | report layout =>
    cases layout with
    | none => exact .refl _
    | some l =>
      rw [perform, Work.outcome_ofExcept_bind]
      cases Failure.readLayout l <;> exact .refl _
  | clearRules => exact .drops rfl rfl
  | forget => exact .forgets rfl fun _ known => known
  | _ => exact .of_same rfl rfl rfl

/-- The session after some requests to its own validator. -/
def after (s : Session) (requests : List Request) : Session :=
  requests.foldl (fun s r => (perform .own r s).2) s

/-- What every request keeps of a validator, a run of them keeps. -/
theorem own_after {I : Validator → Prop} (requests : List Request)
    (step : ∀ r ∈ requests, ∀ v w, Effect r v w → I v → I w) (s : Session) (h : I s.own) :
    I (s.after requests).own := by
  induction requests generalizing s with
  | nil => exact h
  | cons r requests ih =>
    refine ih (fun r mem => step r (.tail _ mem)) _ ?_
    exact step r (.head _) s.own _ (effect_perform r s) h

end Session

end Conform
