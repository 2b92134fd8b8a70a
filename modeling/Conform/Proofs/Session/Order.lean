import Conform.Proofs.Json.Canonical
import Conform.Proofs.Session.Refusal

/-! Schemas given as values. They are remembered under a text that has lost the order of members,
while findings come in that order: a memory goes unnoticed just where sources of one text make
schemas that report alike. -/
namespace Conform

namespace Session

theorem result_of_remembered {s : Session} {a : Source} {c : Compiled} (value : Value)
    (root : String) (h : s.own.remembered? a.memoText? = some c) :
    (perform .own (.validateWith value a root) s).1.result =
      (Validator.validate s.formats value c.node root s.own).1.result.map .outcome := by
  rw [← Validator.validateWith_of_remembered h]
  exact (outcome_keep _ s).1

/-- Without a memory every source gives what it makes itself. -/
theorem makes_of_compile {s : Session} {a : Source} {r : Reply}
    (off : s.own.options.caching = false) {handle : String}
    (h : ((perform .own (.compile a handle)).outcome s).1 = .ok r) :
    ∃ i m, r = .compiled i m ∧ a.Makes s.own.rules s.own.options.mode m := by
  obtain ⟨⟨i, answer⟩, -⟩ := outcome_compileAs a handle s
  rw [perform, answer] at h
  cases compiled : ((Validator.compile a).outcome s.own).1 with
  | error e =>
    rw [compiled] at h
    cases h
  | ok c =>
    rw [compiled] at h
    cases h
    have anew := Validator.remembered_of_not_caching off a.memoText?
    exact ⟨i, c.node, rfl, Validator.makes_of_compileFor anew compiled⟩

theorem coherent_of_answers {P : Source → Prop}
    (unnoticed : ∀ (s : Session) (moves : List Move), s.own.memory = [] →
      (∀ r, .ask r ∈ moves → r.Within s.own P) →
      List.Forall₂ (Agree (Reply.Alike Node.ReportsAs)) (s.answers moves)
        (s.withoutCaching.answers (moves.filter Move.asks))) :
    Coherent Node.ReportsAs P := by
  intro a b ha hb key known known' rules mode n makes
  let s : Session := { own := { options := { mode, caching := true }, rules } }
  have within : ∀ r, .ask r ∈ [Move.ask (.compile a "a"), .ask (.compile b "b")] →
      r.Within s.own P := by
    intro r mem
    rcases List.mem_pair.mp mem with same | same
    · cases same
      exact ⟨trivial, fun c hc => List.mem_singleton.mp hc ▸ ha⟩
    · cases same
      exact ⟨trivial, fun c hc => List.mem_singleton.mp hc ▸ hb⟩
  have alike := unnoticed s [.ask (.compile a "a"), .ask (.compile b "b")] rfl within
  have second : Agree (Reply.Alike Node.ReportsAs)
      ((perform .own (.compile b "b")).outcome (perform .own (.compile a "a") s).2).1
      ((perform .own (.compile b "b")).outcome
        (perform .own (.compile a "a") s.withoutCaching).2).1 :=
    (List.forall₂_cons.mp (List.forall₂_cons.mp alike).2).1
  have anew : s.own.remembered? a.memoText? = none := by
    rw [known]
    rfl
  -- the second source gives what the first has made
  obtain ⟨i, cached⟩ := answer_compile_of_remembered "b"
    (remembered_of_obtains rfl known known' anew makes (.compile "a"))
  rw [cached] at second
  obtain ⟨r, plain, alike⟩ := second.exists_of_ok
  have kept := continues_of_obtains (.compile (a := a) "a") s.withoutCaching
  obtain ⟨j, m, rfl, itself⟩ := makes_of_compile (by rw [kept.options]; rfl) plain
  rw [kept.rules, kept.options] at itself
  refine ⟨m, itself, ?_⟩
  cases alike with
  | same => exact likeness_reportsAs.refl _
  | compiled alike => exact alike

/-- A memory goes unnoticed in all sessions that ask for some sources just where those of one text
make schemas that report alike. -/
theorem answers_alike_iff_coherent (P : Source → Prop) :
    (∀ (s : Session) (moves : List Move), s.own.memory = [] →
      (∀ r, .ask r ∈ moves → r.Within s.own P) →
      List.Forall₂ (Agree (Reply.Alike Node.ReportsAs)) (s.answers moves)
        (s.withoutCaching.answers (moves.filter Move.asks))) ↔
    Coherent Node.ReportsAs P := by
  constructor
  · exact coherent_of_answers
  · intro coherent s moves fresh within
    exact answers_alike likeness_reportsAs coherent moves
      (twins_withoutCaching likeness_reportsAs fresh) within

/-- A string of at least nine: no value is both, so that five is faulted for either. -/
def typeFirst : List (String × Value) := [("type", .string "string"), ("minimum", .ofInt 9)]

def minimumFirst : List (String × Value) := [("minimum", .ofInt 9), ("type", .string "string")]

def wrongType : Finding :=
  { path := .ofString "$", reason := .mistyped "integer" "string", tag := "type",
    value := .ofInt 5, param := some "string" }

def tooSmall : Finding :=
  { path := .ofString "$", reason := .outOfBound .minimum "9", tag := "minimum",
    value := .ofInt 5, param := some "9" }

/-- Two orders of the same members share a place in the memory, so the second schema is answered
with the findings in the order of the first. -/
theorem answers_reordered :
    let s : Session := { own := { options := { caching := true } } }
    let ask (members : List (String × Value)) : Move :=
      .ask (.validateWith (.ofInt 5) (.value (.object .mutable members)) "$")
    s.answers [ask typeFirst, ask minimumFirst] =
      [.ok (.outcome [wrongType, tooSmall]), .ok (.outcome [wrongType, tooSmall])] ∧
    s.withoutCaching.answers [ask typeFirst, ask minimumFirst] =
      [.ok (.outcome [wrongType, tooSmall]), .ok (.outcome [tooSmall, wrongType])] := by
  intro s ask
  refine ⟨?_, rfl⟩
  let a : Source := .value (.object .mutable typeFirst)
  let b : Source := .value (.object .mutable minimumFirst)
  let n : Node := .mk .strict
    [.mk "type" (.plain (.string "string")) (some ⟨.builtin .type, Keyword.kind .type⟩),
      .mk "minimum" (.plain (.ofInt 9))
        (some ⟨.builtin (.bound .minimum), Keyword.kind (.bound .minimum)⟩)] [] []
  have makes : a.Makes Rule.builtins .strict n := ⟨_, rfl, rfl⟩
  have reordered : typeFirst.Perm minimumFirst := .swap _ _ []
  have same : a.memoText? = b.memoText? := by
    show Json.canonical? (.object .mutable typeFirst) =
      Json.canonical? (.object .mutable minimumFirst)
    exact Json.canonical?_perm reordered (by decide)
  obtain ⟨key, known⟩ : ∃ key, a.memoText? = some key := ⟨_, rfl⟩
  have remembered : (Validator.compileFor .compiling a s.own).2.remembered? b.memoText? =
      some ⟨0, n⟩ :=
    Validator.remembered_of_compileFor rfl known (same ▸ known) (by rw [known]; rfl) makes
  have second := result_of_remembered
    (s := (perform .own (.validateWith (.ofInt 5) a "$") s).2) (.ofInt 5) "$" remembered
  show [_, _] = [_, _]
  rw [second]
  rfl

end Session

end Conform
