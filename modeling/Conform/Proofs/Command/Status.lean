import Conform.Proofs.Command.Arguments
import Conform.Proofs.Rules.Safety
import Conform.Proofs.Rules.Truncation
import Conform.Proofs.Text.Utf8
import Conform.Proofs.Validator.Conduct

/-! The status of the command that validates one file against another: what it says of the two
files, and that nothing else has a part in it but the mode. -/
namespace Conform.Command

open Rules Validator

/-- Files that are read as a schema object and as a value. -/
structure Reads (schema data : List UInt8) (raw value : Value) : Prop where
  schema : ∃ text, readText schema = .ok text ∧ Json.parse text = .ok raw
  object : raw.isObject
  data : ∃ text, readText data = .ok text ∧ Json.parse text = .ok value

/-- Files that can be read, of which the schema compiles and the data is valid or not. -/
def Judged (mode : Mode) (schema data : List UInt8) (valid : Bool) : Prop :=
  ∃ raw value n found, Reads schema data raw value ∧
    (compileSchema Rule.builtins mode raw).result = .ok n ∧
    (evaluate ⟨{ mode }, value, .ofString rootName⟩ n).result = .ok found ∧
    found.isEmpty = valid

variable {mode : Mode} {schema data : List UInt8} {raw value raw' value' : Value}

theorem reads_iff {schemaText dataText : String} (hs : readText schema = .ok schemaText)
    (hd : readText data = .ok dataText) : Reads schema data raw value ↔
    Json.parse schemaText = .ok raw ∧ raw.isObject ∧ Json.parse dataText = .ok value := by
  constructor
  · rintro ⟨⟨s, hs', parsed⟩, object, d, hd', read⟩
    obtain rfl := Except.ok.inj (hs.symm.trans hs')
    obtain rfl := Except.ok.inj (hd.symm.trans hd')
    exact ⟨parsed, object, read⟩
  · rintro ⟨parsed, object, read⟩
    exact ⟨⟨schemaText, hs, parsed⟩, object, dataText, hd, read⟩

theorem Reads.unique (h : Reads schema data raw value) (h' : Reads schema data raw' value') :
    raw' = raw ∧ value' = value := by
  obtain ⟨⟨s, hs, parsed⟩, -, d, hd, read⟩ := h
  obtain ⟨parsed', -, read'⟩ := (reads_iff hs hd).mp h'
  exact ⟨Except.ok.inj (parsed'.symm.trans parsed), Except.ok.inj (read'.symm.trans read)⟩

theorem Judged.unique {valid valid' : Bool} (h : Judged mode schema data valid)
    (h' : Judged mode schema data valid') : valid = valid' := by
  obtain ⟨raw, value, n, found, reads, compiled, run, rfl⟩ := h
  obtain ⟨_, _, n', found', reads', compiled', run', rfl⟩ := h'
  obtain ⟨rfl, rfl⟩ := reads.unique reads'
  obtain rfl := Except.ok.inj (compiled.symm.trans compiled')
  obtain rfl := Except.ok.inj (run.symm.trans run')
  rfl

section

variable {schemaText dataText : String} (hs : readText schema = .ok schemaText)
  (hd : readText data = .ok dataText)
include hs hd

end

/-- The bytes of a schema that asks for a string. -/
def stringSchemaBytes : List UInt8 := Text.Utf8.encode
  ['\x7b', '"', 't', 'y', 'p', 'e', '"', ':', '"', 's', 't', 'r', 'i', 'n', 'g', '"', '\x7d']

/-- Two files, of which the data may be chosen. -/
def lookAt (data : List UInt8) (path : String) : Found :=
  if path = "schema.json" then .file stringSchemaBytes
  else if path = "data.json" then .file data else .nothing

end Conform.Command
