import Conform.Proofs.Rules.Safety
import Conform.Proofs.Rules.Terms
import Conform.Proofs.Schema.Inert

/-! What the mode of a run is good for: it decides how a format that nobody has registered is taken,
and nothing else. A loose run is a strict one with a format of leniency under each missing name. -/
namespace Conform

/-- A format that no text fails. -/
def Checker.lenient : Checker := ⟨"lenient", fun _ => .ok true⟩

/-- Formats with a lenient one under each of some names that has none. -/
def Checker.supplied (names : List String) (formats : Listing Checker) : Listing Checker :=
  names.foldl (fun l name => if l.has name then l else l.put name lenient) formats

theorem Checker.get?_supplied (name : String) (names : List String) (formats : Listing Checker) :
    (supplied names formats).get? name =
      (formats.get? name).or (if name ∈ names then some lenient else none) := by
  induction names generalizing formats with
  | nil => simp [supplied]
  | cons first names ih =>
    show (supplied names (if formats.has first then formats else formats.put first lenient)).get?
      name = _
    rw [ih]
    by_cases same : name = first
    · subst same
      cases found : formats.get? name <;> simp [Listing.has, found]
    · split
      · simp [same]
      · simp [same, Listing.get?_put_of_ne same]

namespace Schema

/-- The names that a schema asks for as formats, at any of its schema positions. -/
def formatNames : Value → List String
  | .object _ ms => ms.attach.flatMap fun m =>
    (if m.1.1 = Keyword.format.name then m.1.2.string?.toList else []) ++
      match Keyword.ofName? m.1.1 with
      | some k => (subschemas k m.1.2).attach.flatMap fun sub => formatNames sub.1
      | none => []
  | _ => []
termination_by raw => sizeOf raw
decreasing_by
  exact Nat.lt_of_le_of_lt (sizeOf_le_of_mem_subschemas sub.2) (sizeOf_member_lt m.2)

variable {a : Access} {ms : List (String × Value)}

theorem mem_formatNames {name : String} (mem : (Keyword.format.name, .string name) ∈ ms) :
    name ∈ formatNames (.object a ms) := by
  rw [formatNames, List.mem_flatMap]
  exact ⟨⟨_, mem⟩, List.mem_attach _ _, List.mem_append_left _ (.head _)⟩

theorem formatNames_subset {k : Keyword} {v sub : Value} (mem : (k.name, v) ∈ ms)
    (inner : sub ∈ subschemas k v) : formatNames sub ⊆ formatNames (.object a ms) := by
  intro name asked
  rw [formatNames, List.mem_flatMap]
  refine ⟨⟨_, mem⟩, List.mem_attach _ _, List.mem_append_right _ ?_⟩
  rw [Keyword.ofName?_name]
  exact List.mem_flatMap.mpr ⟨⟨sub, inner⟩, List.mem_attach _ _, asked⟩

end Schema

namespace Rules

open Compile Schema

variable {t u : Terms} {mode mode' : Mode} {raw : Value} {n m : Node} {formats : Listing Checker}
  {allowUnknown : Bool}

theorem result_checkFormat_warn (s : Subject) (v : Value) :
    (checkFormat (s.on ⟨.warn, formats, allowUnknown⟩) v).result =
      (checkFormat (s.on ⟨.strict, formats, allowUnknown⟩) v).result := by
  obtain ⟨frame, value, path⟩ := s
  cases v with
  | string name =>
    cases value with
    | string text =>
      simp only [checkFormat, Subject.on]
      cases Listing.get? name formats <;> rfl
    | _ => rfl
  | _ => rfl

theorem result_checkFormat_loose (s : Subject) {name : String} {names : List String}
    (asked : name ∈ names) :
    (checkFormat (s.on ⟨.loose, formats, allowUnknown⟩) (.string name)).result =
      (checkFormat (s.on ⟨.strict, Checker.supplied names formats, allowUnknown⟩)
        (.string name)).result := by
  obtain ⟨frame, value, path⟩ := s
  cases value with
  | string text =>
    simp only [checkFormat, Subject.on, Checker.get?_supplied, asked, if_true]
    cases Listing.get? name formats <;> rfl
  | _ => rfl

/-- A compiled tree concurs with itself where all formats that its schema asks for are taken alike. -/
theorem concur_of_formats (h : Compiles Rule.builtins mode raw n)
    (allow : t.allowUnknown = u.allowUnknown)
    (alike : ∀ name ∈ formatNames raw, ∀ s : Subject,
      (checkFormat (s.on t) (.string name)).result = (checkFormat (s.on u) (.string name)).result) :
    Concur t u n n := by
  induction n using Node.induction generalizing raw with
  | step n ih =>
    obtain ⟨own, entries, patterns, notes⟩ := n
    refine concur_of_entries (List.forall₂_same.mpr fun e he => ?_)
    obtain ⟨a, ms, ⟨key, v⟩, rfl, mem, member⟩ := h.memberOf_of_mem_entries he
    rcases member.builtins with ⟨k, p, rfl, rfl, compiles⟩ | ⟨-, -, rfl⟩
    · have inside : p.Related (Concur t u) p := by
        refine .refl_of_mem fun m hm => ?_
        obtain ⟨sub, inner, below⟩ := compiles.exists_subschema hm
        refine ih m (Node.mem_subnodes_of_entry he hm) below fun name asked => ?_
        exact alike name (formatNames_subset mem inner asked)
      refine .ruled k inside (concurs_of_related inside ?_)
      rintro w rfl
      -- the one rule to which mode and formats matter, and they do so only by a name
      refine concurs_plain ?_ fun _ _ => allow
      rintro rfl s
      cases compiles
      cases v with
      | string name => exact alike name (mem_formatNames mem) s
      | _ => rfl
    · exact .kept key _

/-- Nothing is left in a tree of the mode that it was compiled in. -/
theorem evaluate_of_modes (hn : (compileSchema Rule.builtins mode raw).result = .ok n)
    (hm : (compileSchema Rule.builtins mode' raw).result = .ok m) (s : Subject) :
    evaluate s n = evaluate s m := by
  by_cases milder : mode' = .strict → mode = .strict
  · have pair := (pairs_mode Rule.builtins mode milder raw).compileSchema onSchemas_id
    exact evaluate_of_alike (pair.related hn hm).alike s
  · have milder : mode = .strict → mode' = .strict := fun _ => by
      by_contra lenient
      exact milder fun h => absurd h lenient
    have pair := (pairs_mode Rule.builtins mode' milder raw).compileSchema onSchemas_id
    exact (evaluate_of_alike (pair.related hm hn).alike s).symm

/-- The mode of a run matters through formats without a checker and through nothing else: a run that
warns ends as a strict one does, and a loose one as a strict one to which a lenient checker is
supplied under each name that the schema asks for in vain. The modes of the trees do not matter. -/
theorem evaluate_moded (hn : (compileSchema Rule.builtins mode raw).result = .ok n)
    (hm : (compileSchema Rule.builtins mode' raw).result = .ok m)
    (answers : Frame.Answers { formats }) (allowUnknown : Bool) (s : Subject) :
    (∀ own, ∃ found, (evaluate (s.on ⟨own, formats, allowUnknown⟩) n).result = .ok found) ∧
    (evaluate (s.on ⟨.warn, formats, allowUnknown⟩) n).result =
      (evaluate (s.on ⟨.strict, formats, allowUnknown⟩) m).result ∧
    (evaluate (s.on ⟨.loose, formats, allowUnknown⟩) n).result =
      (evaluate (s.on ⟨.strict, Checker.supplied (formatNames raw) formats, allowUnknown⟩)
        m).result := by
  have compiles := result_compileSchema_eq_ok_iff.mp hn
  have safe : Safe formats n :=
    safe_of_compiles compiles fun _ same name checker => same ▸ answers name checker
  have warned := concur_of_formats (t := ⟨.warn, formats, allowUnknown⟩)
    (u := ⟨.strict, formats, allowUnknown⟩) compiles rfl
    fun name _ s => result_checkFormat_warn s (.string name)
  have loosened := concur_of_formats (t := ⟨.loose, formats, allowUnknown⟩)
    (u := ⟨.strict, Checker.supplied (formatNames raw) formats, allowUnknown⟩) compiles rfl
    fun name asked s => result_checkFormat_loose s asked
  refine ⟨fun own => safe.runs rfl, ?_, ?_⟩
  · rw [warned.result, evaluate_of_modes hn hm]
  · rw [loosened.result, evaluate_of_modes hn hm]

/-- A format without a checker, under a negation below a property. -/
def tintSchema : Value :=
  .object .mutable [("properties", .object .mutable [("tint", .object .mutable [("not",
    .object .mutable [("format", .string "shade")])])])]

def tintNode (mode : Mode) : Node :=
  .mk mode [.mk "properties" (.named [("tint", .mk mode [.mk "not" (.node (.mk mode
    [.mk "format" (.plain (.string "shade")) (some (.of .format))] [] []))
    (some (.of .negation))] [] [])]) (some (.of .properties))] [] []

/-- Leniency turns round under the negation: what passes strictly fails loosely, and does so strictly
with the lenient checker too. -/
theorem evaluate_moded_tintNode :
    let s : Subject := ⟨{}, .object .mutable [("tint", .string "dark")], .ofString "$"⟩
    (compileSchema Rule.builtins .warn tintSchema).result = .ok (tintNode .warn) ∧
    (compileSchema Rule.builtins .strict tintSchema).result = .ok (tintNode .strict) ∧
    Frame.Answers { formats := Checker.builtins } ∧
    (evaluate (s.on ⟨.warn, Checker.builtins, false⟩) (tintNode .warn)).result = .ok [] ∧
    (evaluate (s.on ⟨.strict, Checker.builtins, false⟩) (tintNode .strict)).result = .ok [] ∧
    (evaluate (s.on ⟨.strict, Checker.supplied (formatNames tintSchema) Checker.builtins, false⟩)
      (tintNode .strict)).result =
        .ok [⟨s.path.child (.member "tint"), .negated, "not", .string "dark", none⟩] := by
  intro s
  have hn : (compileSchema Rule.builtins .warn tintSchema).result = .ok (tintNode .warn) := rfl
  have hm : (compileSchema Rule.builtins .strict tintSchema).result = .ok (tintNode .strict) := rfl
  have answers : Frame.Answers { formats := Checker.builtins } := Frame.answers_of_builtins rfl
  obtain ⟨-, warned, loosened⟩ := evaluate_moded hn hm answers false s
  exact ⟨hn, hm, answers, rfl, warned.symm.trans rfl, loosened.symm.trans rfl⟩

end Rules

end Conform
