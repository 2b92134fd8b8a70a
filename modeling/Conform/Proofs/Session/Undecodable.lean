import Conform.Proofs.Json.Characters
import Conform.Proofs.Rules.Abort
import Conform.Proofs.Session.Refusal
import Conform.Proofs.Text.Utf8

/-! Bytes that cannot be decoded against the memory: they are looked up under their lenient text, which
other sources may have in earnest. -/
namespace Conform

/-- A mapping, which goes by its canonical text. -/
def Source.Mapping : Source → Prop
  | .value (.object ..) => True
  | _ => False

/-- A source that goes without replacement characters, if it compiles at all. -/
def Source.Plain (a : Source) : Prop :=
  (∃ rules mode n, a.Makes rules mode n) → ∀ key, a.memoText? = some key → '\ufffd' ∉ key.toList

section

variable {a : Source}

theorem Source.OfTag.mapping (h : a.OfTag) : a.Mapping := by
  obtain ⟨directives, value, rfl⟩ := h
  trivial

theorem Source.Mapping.plain (mapping : a.Mapping) : a.Plain := by
  intro _ key known mem
  cases a with
  | document d => exact mapping.elim
  | value v =>
    cases v
    case object =>
      have ascii := Json.ascii_of_canonical? known _ mem
      exact absurd ascii (by decide)
    all_goals exact mapping.elim

end

namespace Validator

variable {Q : Source → Prop} {v w : Validator}

/-- All that is remembered was once made by sources of a kind, whatever the rules and the mode were. -/
def StemsFrom (Q : Source → Prop) (v : Validator) : Prop :=
  ∀ key c, v.memory.get? key = some c →
    ∃ a, Q a ∧ a.memoText? = some key ∧ ∃ rules mode, a.Makes rules mode c.node

theorem StemsFrom.of_forgotten (memory : v.memory = []) : v.StemsFrom Q := by
  intro key c found
  rw [memory] at found
  cases found

theorem StemsFrom.of_same (stems : v.StemsFrom Q) (memory : w.memory = v.memory) :
    w.StemsFrom Q := by
  intro key c found
  rw [memory] at found
  exact stems key c found

variable {access : Access} {data : List UInt8} {e : Text.DecodeError}

/-- Undecodable bytes are not found in a memory of sources without replacement characters. -/
theorem StemsFrom.not_remembered (stems : v.StemsFrom Q) (plain : ∀ a, Q a → a.Plain)
    (undecodable : Text.decodeUtf8 data = .error e) :
    v.remembered? (Source.value (.bytes access data)).memoText? = none := by
  cases remembered : v.remembered? (Source.value (.bytes access data)).memoText? with
  | none => rfl
  | some c =>
    obtain ⟨key, known, found⟩ := exists_of_remembered remembered
    obtain ⟨a, asked, known', rules, mode, makes⟩ := stems key c found
    refine absurd ?_ (plain a asked ⟨rules, mode, c.node, makes⟩ key known')
    cases access with
    | mutable => cases known
    | frozen =>
      cases known
      rw [String.toList_ofList]
      exact Text.replaced_of_decodeUtf8 undecodable

theorem compileAnew_of_undecodable (undecodable : Text.decodeUtf8 data = .error e)
    (purpose : Purpose) : compileAnew purpose (.value (.bytes access data)) v =
      .error (.fault (.unreadable purpose (.undecodable e))) := by
  simp only [compileAnew, Document.read, undecodable]

end Validator

namespace Session

open Validator

theorem Effect.stemsFrom {Q : Source → Prop} {r : Request} {v w : Validator}
    (effect : Effect r v w) (asks : ∀ a, r.AsksFor a → Q a) (stems : v.StemsFrom Q) :
    w.StemsFrom Q := by
  cases effect with
  | learns rules mode memory =>
    intro key c found
    rcases memory key c found with before | ⟨a, asked, known, makes⟩
    · exact stems key c before
    · exact ⟨a, asks a asked, known, _, _, makes⟩
  | forgets memory => exact .of_forgotten memory
  | switches _ _ memory => exact stems.of_same memory
  | drops _ memory => exact stems.of_same memory

theorem stemsFrom_after {Q : Source → Prop} {s : Session} {requests : List Request}
    (fresh : s.own.memory = []) (asks : ∀ r ∈ requests, ∀ a, r.AsksFor a → Q a) :
    (s.after requests).own.StemsFrom Q :=
  own_after requests (fun r mem _ _ effect => effect.stemsFrom (asks r mem)) s (.of_forgotten fresh)

/-- A source with a replacement character lets undecodable bytes pass. -/
theorem exists_passes_of_not_plain {a : Source} (replaced : ¬a.Plain) :
    ∃ (s : Session) (data : List UInt8) (e : Text.DecodeError), s.own.memory = [] ∧
      Text.decodeUtf8 data = .error e ∧ ∃ c, (s.after [.compile a ""]).own.remembered?
        (Source.value (.bytes .frozen data)).memoText? = some c := by
  simp only [Source.Plain, not_forall, not_not] at replaced
  obtain ⟨⟨rules, mode, n, makes⟩, key, known, mem⟩ := replaced
  -- other bytes, which cannot be decoded, have the same text leniently
  obtain ⟨data, e, undecodable, lenient⟩ := Text.exists_undecodable_iff.mpr mem
  have known' : (Source.value (.bytes .frozen data)).memoText? = some key := by
    show some (String.ofList (Text.Utf8.decodeLenient data)) = some key
    rw [lenient, String.ofList_toList]
  exact ⟨remembering rules mode, data, e, rfl, undecodable, _,
    remembered_of_obtains rfl known known' (remembered?_remembering rules mode _) makes (.compile "")⟩

/-- Undecodable bytes are refused in all sessions, and nothing is remembered for them, exactly if the
schemas that are asked for go without replacement characters. Mappings always do. -/
theorem undecodable_refused_iff (P : Source → Prop) :
    (∀ (s : Session) (requests : List Request), s.own.memory = [] →
      (∀ r ∈ requests, ∀ a, r.AsksFor a → a.Mapping ∨ P a) →
      ∀ access data e, Text.decodeUtf8 data = .error e →
        (s.after requests).Refuses (.value (.bytes access data))
          fun purpose f => f = .fault (.unreadable purpose (.undecodable e))) ↔
    ∀ a, P a → a.Plain := by
  constructor
  · intro refused a ha
    by_contra replaced
    obtain ⟨s, data, e, fresh, undecodable, c, remembered⟩ := exists_passes_of_not_plain replaced
    have asks : ∀ r ∈ [Request.compile a ""], ∀ b, r.AsksFor b → b.Mapping ∨ P b := by
      intro r mem b asked
      obtain rfl := List.mem_singleton.mp mem
      exact .inr (asked ▸ ha)
    have refuses := refused s _ fresh asks .frozen data e undecodable
    cases refuses.not_remembered.symm.trans remembered
  · intro plain s requests fresh asks access data e undecodable
    refine refuses_of_compileAnew ((stemsFrom_after fresh asks).not_remembered ?_ undecodable) ?_
    · rintro a (mapping | ha)
      · exact mapping.plain
      · exact plain a ha
    · exact fun purpose => ⟨_, rfl, compileAnew_of_undecodable undecodable purpose⟩

/-- A schema with nothing but a title, cut where the title stands. -/
def titleStart : List Char := ['\x7b', '"', 't', 'i', 't', 'l', 'e', '"', ':', '"']

def titleEnd : List Char := ['"', '\x7d']

/-- Its text with a replacement character for a title. -/
def titleText : Source := .value (.string (String.ofList (titleStart ++ '\ufffd' :: titleEnd)))

/-- Its bytes with one that no character has. -/
def titleBytes : List UInt8 := Text.Utf8.encode titleStart ++ 0xff :: Text.Utf8.encode titleEnd

def titleNode : Node := .mk .strict [] [] [("title", .string "\ufffd")]

theorem makes_titleText : titleText.Makes Rule.builtins .strict titleNode := by
  refine ⟨⟨.object .mutable [("title", .string "\ufffd")], .strict,
    some (String.ofList (titleStart ++ '\ufffd' :: titleEnd))⟩, ?_, rfl⟩
  show Document.ofText .strict (String.ofList (titleStart ++ '\ufffd' :: titleEnd)).toList = _
  rw [String.toList_ofList]
  rfl

theorem memoText?_titleBytes : (Source.value (.bytes .frozen titleBytes)).memoText? =
    some (String.ofList (titleStart ++ '\ufffd' :: titleEnd)) := by
  show some (String.ofList (Text.Utf8.decodeLenient titleBytes)) = _
  rw [titleBytes, Text.Utf8.decodeLenient_encode_unused]

/-- Bytes that cannot be decoded are answered for by a text that has been asked for before. -/
theorem undecodable_passes :
    Text.decodeUtf8 titleBytes = .error ⟨"utf-8", titleBytes, 10, 1, .invalidStart⟩ ∧
    ∃ i, ((perform .own (.compile (.value (.bytes .frozen titleBytes)) "")).outcome
      ((remembering Rule.builtins .strict).after [.validateText fiveText titleText])).1 =
        .ok (.compiled i titleNode) := by
  refine ⟨Text.decodeUtf8_encode_unused titleStart _, ?_⟩
  exact answer_compile_of_remembered "" (remembered_of_obtains
    (s := remembering Rule.builtins .strict) rfl rfl memoText?_titleBytes
    (remembered?_remembering _ _ _) makes_titleText (.validateText read_fiveText))

end Session

end Conform
