import Conform.Fault
import Conform.Json.Writer
import Conform.Mode

/-!
Schema documents: read from text, from bytes or from a value, but not yet compiled.
-/
namespace Conform

structure Document where
  raw : Value
  mode : Mode := .strict
  /-- The text it was read from, if there was one. -/
  source : Option String := none

/-- What a schema can be asked for in. Strings and bytes hold JSON text. -/
inductive Source
  | value (v : Value)
  | document (d : Document)

namespace Document

def ofRaw (mode : Mode) (source : Option String) (raw : Value) : Except Unreadable Document :=
  match raw with
  | .object .. => .ok ⟨raw, mode, source⟩
  | v => .error (.notAnObject v.jsonType)

def ofText (mode : Mode) (cs : List Char) : Except Unreadable Document :=
  match Json.parseUnmarked cs with
  | .error m => .error (.misread m cs)
  | .ok raw => ofRaw mode (some (String.ofList cs)) raw

/-- Reads a document in a mode. One that is read already only changes its mode. -/
def read (mode : Mode) : Source → Except Unreadable Document
  | .document d => .ok { d with mode }
  | .value (.bytes _ data) =>
    match Text.decodeUtf8 data with
    | .error e => .error (.undecodable e)
    | .ok cs => ofText mode cs
  | .value (.string s) => ofText mode s.toList
  | .value (.object a ms) => .ok ⟨.object a ms, mode, none⟩
  | .value v => .error (.unsupported v.className)

/-- The text under one of the descriptive keys. -/
def text? (d : Document) (key : String) : Option String :=
  (d.raw.members?.bind (Listing.get? key)).bind Value.string?

end Document

/-- The text under which a compiled source is remembered: its own text, or the canonical text of a
value. Bytes go by their text as far as they can be read. -/
def Source.memoText? : Source → Option String
  | .value v => ofValue? v
  | .document ⟨_, _, some text⟩ => some text
  | .document ⟨raw, _, none⟩ => ofValue? raw
where
  ofValue? : Value → Option String
    | .bytes .frozen data => some (String.ofList (Text.Utf8.decodeLenient data))
    | .string s => some s
    | v => Json.canonical? v

end Conform
