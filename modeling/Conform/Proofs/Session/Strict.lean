import Conform.Proofs.Rules.Abort
import Conform.Proofs.Schema.Breakdown
import Conform.Proofs.Schema.Stray
import Conform.Proofs.Session.Refusal
import Conform.Proofs.Session.Text

/-! Strict mode against the memory: what is remembered compiles in the mode and under the rules that
hold now, as long as both change in no other way than by those that also forget. -/
namespace Conform

open Schema

/-- A source that holds what its text says: a document that has a text was read from it. -/
def Source.Authentic : Source → Prop
  | .document d => ∀ text, d.source = some text → Json.parseUnmarked text.toList = .ok d.raw
  | .value _ => True

/-- Requests that may leave in the memory what no longer compiles: to become strict by way of the
options, and to drop all rules. -/
inductive Request.Tightens : Request → Prop
  | mode : Tightens (.setOption "validation_mode" (.string Mode.strict.name))
  | rules : Tightens .clearRules

/-- A request for sources that hold what they say, which tightens only if that is allowed. -/
structure Request.Fair (allowed : Request → Prop) (r : Request) : Prop where
  tightens : r.Tightens → allowed r
  authentic (a : Source) : r.AsksFor a → a.Authentic

theorem Document.parseUnmarked_of_ofText {mode : Mode} {cs : List Char} {d : Document}
    (h : ofText mode cs = .ok d) : Json.parseUnmarked cs = .ok d.raw := by
  unfold ofText at h
  cases parsed : Json.parseUnmarked cs with
  | error m =>
    rw [parsed] at h
    cases h
  | ok raw =>
    rw [parsed] at h
    cases raw
    case object =>
      cases h
      rfl
    all_goals cases h

section

variable {a : Source} {rules : Listing Rule} {mode : Mode} {n : Node} {key : String} {w : Value}

theorem Source.Textual.parseUnmarked (textual : a.Textual) (known : a.memoText? = some key)
    {d : Document} (reads : Document.read mode a = .ok d) :
    Json.parseUnmarked key.toList = .ok d.raw := by
  rw [read_of_textual textual known] at reads
  exact Document.parseUnmarked_of_ofText reads

/-- What a source compiles is read from its text, or its text is written from that. -/
theorem Source.Makes.exists_raw (makes : a.Makes rules mode n) (authentic : a.Authentic)
    (known : a.memoText? = some key) : ∃ raw, Compiles rules mode raw n ∧
      (Json.parseUnmarked key.toList = .ok raw ∨ Json.canonical? raw = some key) := by
  obtain ⟨d, reads, compiled⟩ := makes
  have compiles := result_compileSchema_eq_ok_iff.mp compiled
  refine ⟨d.raw, compiles, ?_⟩
  have of_textual (textual : a.Textual) : Json.parseUnmarked key.toList = .ok d.raw :=
    textual.parseUnmarked known reads
  cases a with
  | document e =>
    cases reads
    obtain ⟨raw, stated, source⟩ := e
    cases source with
    | some text =>
      cases known
      exact .inl (authentic _ rfl)
    | none =>
      obtain ⟨access, ms, rfl⟩ := isObject_iff.mp (isObject_of_compiles compiles)
      exact .inr known
  | value v =>
    cases v
    case object =>
      cases reads
      exact .inr known
    case string => exact .inl (of_textual trivial)
    case bytes access data =>
      cases decoded : Text.decodeUtf8 data with
      | ok cs => exact .inl (of_textual ⟨cs, decoded⟩)
      | error e =>
        simp only [Document.read, decoded] at reads
        cases reads
    all_goals cases reads

/-- What a source compiles is what its text holds, or is echoed by that. -/
theorem Source.Makes.exists_compiles (makes : a.Makes rules mode n) (authentic : a.Authentic)
    (known : a.memoText? = some key) (read : Json.parseUnmarked key.toList = .ok w) :
    ∃ raw, Compiles rules mode raw n ∧ (raw = w ∨ Json.Echoes raw w) := by
  obtain ⟨raw, compiles, parsed | written⟩ := makes.exists_raw authentic known
  · exact ⟨raw, compiles, .inl (Except.ok.inj (parsed.symm.trans read))⟩
  · exact ⟨raw, compiles, .inr (Json.echoes_of_parseUnmarked written read)⟩

end

/-- Failures over a schema with a stray key: it is refused, unless it breaks down first over a pattern
that is read unprepared. -/
inductive StrayFailure (rules : Listing Rule) (raw : Value) (purpose : Purpose) : Failure → Prop
  | refused (f : SchemaFault) : StrayFailure rules raw purpose (.fault (.rejected purpose f))
  | breakdown {text : String} {r : Pattern.Rejection} (uncaught : Uncaught rules .strict text r raw)
    (rejected : Pattern.compile text = .error r) :
    StrayFailure rules raw purpose (.breakdown (.ofRejection text r))

namespace Validator

variable {v w : Validator} {a : Source} {d : Document}

theorem exists_compileAnew_of_stray (strict : v.options.mode = .strict)
    (reads : Document.read .strict a = .ok d) (stray : Stray v.rules d.raw) (purpose : Purpose) :
    ∃ e, StrayFailure v.rules d.raw purpose e ∧ compileAnew purpose a v = .error e := by
  unfold compileAnew
  rw [strict, reads]
  dsimp only
  cases compiled : (compileSchema v.rules .strict d.raw).result with
  | ok n => exact absurd ⟨n, result_compileSchema_eq_ok_iff.mp compiled⟩ stray.not_compiles
  | error e =>
    cases e with
    | refused f => exact ⟨_, .refused f, rfl⟩
    | breakdown b =>
      obtain ⟨text, r, uncaught, rejected, rfl⟩ :=
        blames_compileSchema v.rules .strict d.raw b compiled
      exact ⟨_, .breakdown uncaught rejected, rfl⟩

/-- In strict mode, all that is remembered is made strictly, by sources that hold what they say. -/
def StrictlyMade (v : Validator) : Prop :=
  v.options.mode = .strict → ∀ key c, v.memory.get? key = some c →
    v.MadeOf Source.Authentic key c.node

theorem StrictlyMade.of_forgotten (memory : v.memory = []) : v.StrictlyMade := by
  intro _ key c found
  rw [memory] at found
  cases found

/-- Nothing that is made strictly is remembered for a stray key. -/
theorem StrictlyMade.not_remembered (made : v.StrictlyMade) (strict : v.options.mode = .strict)
    (textual : a.Textual) (reads : Document.read .strict a = .ok d)
    (stray : Stray v.rules d.raw) : v.remembered? a.memoText? = none := by
  cases remembered : v.remembered? a.memoText? with
  | none => rfl
  | some c =>
    obtain ⟨key, known, found⟩ := exists_of_remembered remembered
    obtain ⟨b, authentic, known', makes⟩ := made strict key c found
    rw [strict] at makes
    -- the one that made it may be a mapping, which holds the stray key where its text does
    obtain ⟨raw, compiles, same | echoes⟩ :=
      makes.exists_compiles authentic known' (textual.parseUnmarked known reads)
    · subst same
      exact absurd ⟨_, compiles⟩ stray.not_compiles
    · exact absurd ⟨_, compiles⟩ (echoes.stray stray).not_compiles

end Validator

namespace Session

open Validator

theorem Effect.strictlyMade {r : Request} {v w : Validator} (effect : Effect r v w)
    (loosens : ¬r.Tightens) (authentic : ∀ a, r.AsksFor a → a.Authentic) (made : v.StrictlyMade) :
    w.StrictlyMade := by
  cases effect with
  | learns rules mode memory =>
    intro strict key c found
    unfold MadeOf
    rw [rules, mode]
    rcases memory key c found with before | ⟨a, asked, known, makes⟩
    · exact made (mode ▸ strict) key c before
    · exact ⟨a, authentic a asked, known, makes⟩
  | forgets memory => exact .of_forgotten memory
  | switches asked =>
    intro strict
    rw [strict] at asked
    subst asked
    exact absurd .mode loosens
  | drops asked =>
    subst asked
    exact absurd .rules loosens

/-- Where all that is remembered is made strictly, a stray key is refused. -/
theorem refuses_of_strictlyMade {s : Session} {a : Source} {d : Document}
    (made : s.own.StrictlyMade) (strict : s.own.options.mode = .strict) (textual : a.Textual)
    (reads : Document.read .strict a = .ok d) (stray : Stray s.own.rules d.raw) :
    s.Refuses a (StrayFailure s.own.rules d.raw) :=
  refuses_of_compileAnew (made.not_remembered strict textual reads stray)
    (exists_compileAnew_of_stray strict reads stray)

theorem strictlyMade_after {allowed : Request → Prop} {s : Session} {requests : List Request}
    (fresh : s.own.memory = []) (fair : ∀ r ∈ requests, r.Fair allowed)
    (loosens : ∀ r, allowed r → ¬r.Tightens) : (s.after requests).own.StrictlyMade := by
  refine own_after requests (fun r mem v w effect made => ?_) s (.of_forgotten fresh)
  have fair := fair r mem
  exact effect.strictlyMade (fun t => loosens r (fair.tightens t) t) fair.authentic made

/-- A schema with one key that is no keyword. -/
def unitChars : List Char := ['\x7b', '"', 'u', 'n', 'i', 't', '"', ':', '1', '\x7d']

def unitText : Source := .value (.string (String.ofList unitChars))

def unitDocument : Document where
  raw := .object .mutable [("unit", .ofInt 1)]
  source := some (String.ofList unitChars)

theorem memoText?_unitText : unitText.memoText? = some (String.ofList unitChars) := rfl

theorem read_unitText (mode : Mode) :
    Document.read mode unitText = .ok { unitDocument with mode } := by
  show Document.ofText mode (String.ofList unitChars).toList = _
  rw [String.toList_ofList]
  rfl

theorem stray_unitDocument {rules : Listing Rule} (unruled : Listing.get? "unit" rules = none) :
    Stray rules unitDocument.raw :=
  ⟨.mutable, _, "unit", _, .root, .head _, by decide, unruled⟩

/-- What the schema compiles to, with or without a rule. -/
def unitNode (mode : Mode) (rule : Option Rule) : Node :=
  .mk mode [.mk "unit" (.plain (.ofInt 1)) rule] [] []

theorem makes_unitText_of_loose : unitText.Makes Rule.builtins .loose (unitNode .loose none) :=
  ⟨_, read_unitText .loose, rfl⟩

theorem makes_unitText_of_ruled (rule : Rule) :
    unitText.Makes [("unit", rule)] .strict (unitNode .strict (some rule)) :=
  ⟨_, read_unitText .strict, rfl⟩

theorem own_setOption_strict (s : Session) :
    (perform .own (.setOption "validation_mode" (.string Mode.strict.name)) s).2.own =
      { s.own with options := { s.own.options with mode := .strict } } := rfl

theorem own_clearRules (s : Session) :
    (perform .own .clearRules s).2.own = { s.own with rules := [] } := rfl

section

variable {q : Request} {purpose : Purpose}

/-- Asked loosely, then strict by way of the options. -/
def becomesStrict (q : Request) : Session :=
  (remembering Rule.builtins .loose).after
    [q, .setOption "validation_mode" (.string Mode.strict.name)]

theorem own_becomesStrict (q : Request) : (becomesStrict q).own =
    let v := (perform .own q (remembering Rule.builtins .loose)).2.own
    { v with options := { v.options with mode := .strict } } :=
  own_setOption_strict _

theorem becomesStrict_rules (obtains : q.Obtains unitText purpose) :
    (becomesStrict q).own.rules = Rule.builtins := by
  rw [own_becomesStrict]
  exact (continues_of_obtains obtains (remembering Rule.builtins .loose)).rules

theorem becomesStrict_remembered (obtains : q.Obtains unitText purpose) :
    (becomesStrict q).own.remembered? unitText.memoText? = some ⟨0, unitNode .loose none⟩ := by
  rw [own_becomesStrict]
  exact remembered_of_obtains (s := remembering Rule.builtins .loose) rfl memoText?_unitText
    memoText?_unitText rfl makes_unitText_of_loose obtains

/-- Asked with a rule for the key, then without any. -/
def losesRules (q : Request) : Session :=
  (remembering [("unit", .of .format)] .strict).after [q, .clearRules]

theorem own_losesRules (q : Request) : (losesRules q).own =
    { (perform .own q (remembering [("unit", .of .format)] .strict)).2.own with rules := [] } :=
  own_clearRules _

theorem losesRules_mode (obtains : q.Obtains unitText purpose) :
    (losesRules q).own.options.mode = .strict := by
  have kept := continues_of_obtains obtains (remembering [("unit", .of .format)] .strict)
  rw [own_losesRules]
  exact congrArg Options.mode kept.options

theorem losesRules_remembered (obtains : q.Obtains unitText purpose) :
    (losesRules q).own.remembered? unitText.memoText? =
      some ⟨0, unitNode .strict (some (.of .format))⟩ := by
  rw [own_losesRules]
  exact remembered_of_obtains (s := remembering [("unit", .of .format)] .strict) rfl
    memoText?_unitText memoText?_unitText rfl (makes_unitText_of_ruled _) obtains

end

/-- Each request that tightens lets a schema with a stray key pass that is remembered. -/
theorem exists_passes_of_tightens {q r : Request} {purpose : Purpose}
    (obtains : q.Obtains unitText purpose) (tightens : r.Tightens) : ∃ s : Session,
    s.own.memory = [] ∧ (s.after [q, r]).own.options.mode = .strict ∧
    Listing.get? "unit" (s.after [q, r]).own.rules = none ∧
    ∃ c, (s.after [q, r]).own.remembered? unitText.memoText? = some c := by
  cases tightens with
  | mode =>
    refine ⟨remembering Rule.builtins .loose, rfl, ?_, ?_, _, becomesStrict_remembered obtains⟩
    · exact congrArg (·.options.mode) (own_becomesStrict q)
    · exact (congrArg (Listing.get? "unit") (becomesStrict_rules obtains)).trans rfl
  | rules =>
    refine ⟨remembering [("unit", .of .format)] .strict, rfl, losesRules_mode obtains, ?_, _,
      losesRules_remembered obtains⟩
    exact congrArg (Listing.get? "unit" ·.rules) (own_losesRules q)

/-- Strict mode refuses the schemas with stray keys in all sessions, whatever is remembered, exactly
if no session may tighten: the options and the rules leave the memory as it is. -/
theorem strict_refuses_stray_iff (allowed : Request → Prop) :
    (∀ (s : Session) (requests : List Request), s.own.memory = [] →
      (∀ r ∈ requests, r.Fair allowed) → (s.after requests).own.options.mode = .strict →
      ∀ a d, a.Textual → Document.read .strict a = .ok d →
        Stray (s.after requests).own.rules d.raw →
        (s.after requests).Refuses a (StrayFailure (s.after requests).own.rules d.raw)) ↔
    ∀ r, allowed r → ¬r.Tightens := by
  constructor
  · intro holds r allows tightens
    -- one schema, compiled before the request and asked for after it, tells
    obtain ⟨s, fresh, strict, unruled, c, remembered⟩ :=
      exists_passes_of_tightens (.compile "") tightens
    have fair : ∀ q ∈ [.compile unitText "", r], q.Fair allowed := by
      intro q mem
      simp only [List.mem_cons, List.not_mem_nil, or_false] at mem
      rcases mem with rfl | rfl
      · exact ⟨nofun, fun a asked => asked ▸ trivial⟩
      · exact ⟨fun _ => allows, fun a asked => by cases tightens <;> exact asked.elim⟩
    have refuses := holds s _ fresh fair strict unitText _ trivial (read_unitText .strict)
      (stray_unitDocument unruled)
    cases refuses.not_remembered.symm.trans remembered
  · intro loosens s requests fresh fair strict a d textual reads stray
    exact refuses_of_strictlyMade (strictlyMade_after fresh fair loosens) strict textual reads stray

/-- The schema under its stray key was compiled loosely, and is not refused in strict mode. -/
theorem stray_passes_strict :
    (becomesStrict (.validateText fiveText unitText)).own.options.mode = .strict ∧
    Document.read .strict unitText = .ok unitDocument ∧
    Stray (becomesStrict (.validateText fiveText unitText)).own.rules unitDocument.raw ∧
    ((perform .own (.validateText fiveText unitText)).outcome
      (becomesStrict (.validateText fiveText unitText))).1 = .ok (.outcome []) := by
  have obtains := Request.Obtains.validateText (a := unitText) read_fiveText
  refine ⟨congrArg (·.options.mode) (own_becomesStrict _), read_unitText .strict, ?_, ?_⟩
  · rw [becomesStrict_rules obtains]
    exact stray_unitDocument rfl
  · rw [perform, (outcome_keep _ _).1, outcome_through,
      outcome_validateText_of_remembered read_fiveText (becomesStrict_remembered obtains),
      outcome_validate, Rules.result_evaluate_of_idle rfl]
    rfl

end Session

end Conform
