import Conform.Proofs.Session.Run
import Conform.Proofs.Text.Utf8

/-! Schemas given as text: the text under which one is remembered is all that its compilation reads,
so that no session can tell whether it is remembered. -/
namespace Conform

/-- A schema given as a string or as bytes that are the text of characters. -/
def Source.Textual : Source → Prop
  | .value (.string _) => True
  | .value (.bytes _ data) => ∃ cs, Text.decodeUtf8 data = .ok cs
  | _ => False

theorem read_of_textual {a : Source} (textual : a.Textual) {key : String}
    (known : a.memoText? = some key) (mode : Mode) :
    Document.read mode a = Document.ofText mode key.toList := by
  cases a with
  | document d => exact textual.elim
  | value v =>
    cases v with
    | string s =>
      cases known
      rfl
    | bytes access data =>
      obtain ⟨cs, decoded⟩ := textual
      cases access with
      | mutable => cases known
      | frozen =>
        cases known
        rw [Text.decodeLenient_of_decodeUtf8 decoded, String.toList_ofList]
        simp only [Document.read, decoded]
    | _ => exact textual.elim

theorem coherent_textual : Coherent Eq Source.Textual := by
  intro a b ha hb key hkey hkey' rules mode n makes
  obtain ⟨d, read, compiled⟩ := makes
  rw [read_of_textual ha hkey] at read
  rw [← read_of_textual hb hkey'] at read
  exact ⟨n, ⟨d, read, compiled⟩, rfl⟩

namespace Session

/-- Whether schemas given as text are remembered is not observable: the answers of a session are
those of one that never caches, compiled schemas and failures included. -/
theorem answers_of_textual (s : Session) (fresh : s.own.memory = []) (moves : List Move)
    (textual : ∀ r, .ask r ∈ moves → r.Within s.own Source.Textual) :
    List.Forall₂ (Agree (Reply.Alike Eq)) (s.answers moves)
      (s.withoutCaching.answers (moves.filter Move.asks)) :=
  answers_alike likeness_eq coherent_textual moves (twins_withoutCaching likeness_eq fresh) textual

/-- One text twice, as a string and as bytes, with caching off and a refused rule in between. -/
def textualMoves : List Move :=
  [.ask (.compile (.value (.string "\x7b\x7d")) "a"), .caching (.bool false),
    .ask (.enterRule "" none (.string "custom") true), .caching (.bool true),
    .ask (.validateText (.string "5") (.value (.bytes .frozen [0x7b, 0x7d])))]

theorem answers_textualMoves :
    List.Forall₂ (Agree (Reply.Alike Eq))
      (({ own := { options := { caching := true } } } : Session).answers textualMoves)
      (({ own := { options := { caching := true } } } : Session).withoutCaching.answers
        (textualMoves.filter Move.asks)) := by
  refine answers_of_textual _ rfl textualMoves fun r mem => ?_
  simp only [textualMoves, List.mem_cons, Move.ask.injEq, reduceCtorEq, List.not_mem_nil, or_false,
    false_or] at mem
  rcases mem with rfl | rfl | rfl
  · exact ⟨trivial, fun a ha => by cases List.mem_singleton.mp ha; trivial⟩
  · exact ⟨trivial, fun a ha => nomatch ha⟩
  · refine ⟨trivial, fun a ha => ?_⟩
    cases List.mem_singleton.mp ha
    refine ⟨['\x7b', '\x7d'], ?_⟩
    simp [Text.decodeUtf8, Text.Utf8.pieces, Text.Utf8.piece, Text.Piece.more,
      Text.Utf8.decodePieces, Except.map]

end Session

end Conform
