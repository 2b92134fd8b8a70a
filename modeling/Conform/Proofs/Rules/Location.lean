import Conform.Proofs.Rules.Places

/-! Where findings are. The path of a finding is made of steps from the path that was given, and they
lead from the value that was given to the one the finding is about; only a missing member is named
by a last step that leads nowhere. -/
namespace Conform

/-- A finding said again by a clause of a condition, which shows its own value beside the path of
the finding inside. -/
def Finding.Retold (f : Finding) : Prop :=
  f.tag = Clause.consequent.name ∨ f.tag = Clause.alternative.name

/-- What a finding says of the end of some steps from a value: that they lead to a value, which is
the one shown if one is shown, or that the last of them names a member that is not there. -/
def Finding.Meets (v : Value) (steps : List Step) (f : Finding) : Prop :=
  match f.reason.missing? with
  | none => ∃ w, v.follow? steps = some w ∧ (¬ f.Retold → f.value ≠ .null → f.value = w)
  | some name => ∃ before a ms, steps = before ++ [.member name] ∧
      v.follow? before = some (.object a ms) ∧ Listing.has name ms = false ∧
      (¬ f.Retold → f.tag = Keyword.required.name ∧ f.value = .null)

/-- A finding below a path, at the end of steps that it is right about. -/
def Finding.Located (v : Value) (p : Path) (f : Finding) : Prop :=
  ∃ steps, f.path = { p with steps := p.steps ++ steps } ∧ f.Meets v steps

section

variable {v w : Value} {p : Path} {step : Step} {f : Finding}

theorem Finding.Meets.cons {steps : List Step} (h : f.Meets w steps)
    (leads : v.step? step = some w) : f.Meets v (step :: steps) := by
  unfold Finding.Meets at h ⊢
  split at h
  · rwa [Value.follow?_of_step leads]
  · obtain ⟨before, a, ms, rfl, found, absent, plain⟩ := h
    refine ⟨step :: before, a, ms, rfl, ?_, absent, plain⟩
    rwa [Value.follow?_of_step leads]

/-- What is located below a step is located above it. -/
theorem Finding.Located.above (h : f.Located w (p.child step)) (leads : v.step? step = some w) :
    f.Located v p := by
  obtain ⟨steps, path, meets⟩ := h
  refine ⟨step :: steps, ?_, meets.cons leads⟩
  simp [path, Path.child]

/-- A finding at the path itself, which shows the value or none. -/
theorem Finding.Located.own (path : f.path = p) (present : f.reason.missing? = none)
    (shown : f.value = v ∨ f.value = .null) : f.Located v p := by
  refine ⟨[], by simp [path], ?_⟩
  unfold Finding.Meets
  rw [present]
  refine ⟨v, rfl, fun _ filled => shown.resolve_right filled⟩

theorem Finding.Located.conjunct (i : Nat) (h : f.Located v p) :
    (Rules.conjunctFinding i f).Located v p := h

/-- A clause keeps the place of a finding and gives up the value there. -/
theorem Finding.Located.clause {s : Rules.Subject} {c : Clause} (asks : c ≠ .condition)
    (h : f.Located v p) : (Rules.clauseFinding s c f).Located v p := by
  have retold : (Rules.clauseFinding s c f).Retold := by
    cases c with
    | condition => contradiction
    | consequent => exact .inl rfl
    | alternative => exact .inr rfl
  obtain ⟨steps, path, meets⟩ := h
  refine ⟨steps, path, ?_⟩
  unfold Finding.Meets at meets ⊢
  change match f.reason.missing? with
    | none => _
    | some name => _
  split at meets
  · obtain ⟨w, found, -⟩ := meets
    exact ⟨w, found, fun plain => absurd retold plain⟩
  · obtain ⟨before, a, ms, same, found, absent, -⟩ := meets
    exact ⟨before, a, ms, same, found, absent, fun plain => absurd retold plain⟩

end

namespace Rules

/-- A node whose runs are right about where their findings are. -/
def Locates (n : Node) : Prop :=
  ∀ s : Subject, s.value.JsonLike → NodeReports (Finding.Located s.value s.path) (evaluate s n).result

/-- To be located is a law of places: it holds of what a rule finds at its own value, and a step that
leads to a part of the value is put before the steps below. -/
theorem placeLaw_located : PlaceLaw fun v p f => v.JsonLike → f.Located v p where
  own path present shown _ := .own path present shown
  missing {a ms name} absent _ _ :=
    ⟨[.member name], rfl, [], a, ms, rfl, rfl, absent, fun _ => ⟨rfl, rfl⟩⟩
  inside part _ _ below json := by
    have leads := json.step?_of_part part
    exact (below (json.of_step? leads)).above leads
  clause asks _ _ _ _ inner json := (inner json).clause asks

/-- A branch is a step that stays at the value. -/
theorem branchLaw_located : BranchLaw fun v p f => v.JsonLike → f.Located v p := by
  intro v p i f below json
  exact ((below json).above (Value.step?_branch v i)).conjunct i

theorem locates_of_compiles {mode : Mode} {raw : Value} {n : Node}
    (h : Compiles Rule.builtins mode raw n) : Locates n := by
  intro s json
  apply (places_of_compiles placeLaw_located h (fun _ => branchLaw_located) s).imp
  exact fun f located => located json

/-- Findings are where they say. The path of each is the given one with steps after it, and these
lead from the given value to a value that is there, which is the one that the finding shows, unless
it shows none or a clause of a condition has put its own in the place. Only where a required member
is missing the last step leads nowhere: it names a member that the object before it does not have. -/
theorem evaluate_located {mode : Mode} {raw : Value} {n : Node}
    (compiled : (compileSchema Rule.builtins mode raw).result = .ok n) {frame : Frame}
    {value : Value} {root : String} {found : List Finding} (json : value.JsonLike)
    (run : (evaluate ⟨frame, value, .ofString root⟩ n).result = .ok found) :
    ∀ f ∈ found, ∃ steps, f.path.text = steps.foldl Path.stepText root ∧ f.Meets value steps := by
  have located := locates_of_compiles (result_compileSchema_eq_ok_iff.mp compiled)
    ⟨frame, value, .ofString root⟩ json
  rw [run] at located
  intro f hf
  obtain ⟨steps, path, meets⟩ := located f hf
  exact ⟨steps, by simp [path, Path.text, Path.ofString], meets⟩

/-- Strings in a list, asked for in a branch, and a member asked for by a clause. -/
def placedSchema : Value :=
  .object .mutable [("allOf", .list [.object .mutable [("properties", .object .mutable [("p",
      .object .mutable [("items", .object .mutable [("type", .string "string")])])])]]),
    ("if", .object .mutable []), ("then", .object .mutable [("required", .list [.string "q"])])]

def placedNode : Node :=
  .mk .strict
    [.mk "allOf" (.nodes [.mk .strict [.mk "properties" (.named [("p", .mk .strict
        [.mk "items" (.node (.mk .strict
          [.mk "type" (.plain (.string "string")) (some (.of .type))] [] []))
          (some (.of .items))] [] [])]) (some (.of .properties))] [] []])
      (some (.of (.combine .allOf))),
    .mk "if" (.node (.mk .strict [] [] [])) (some (.of (.clause .condition))),
    .mk "then" (.node (.mk .strict
        [.mk "required" (.plain (.array .frozen [.string "q"])) (some (.of .required))] [] []))
      (some (.of (.clause .consequent)))] [] []

/-- An element below a branch is shown itself, and a missing member with the value around it. -/
theorem evaluate_located_placedNode :
    let value : Value := .object .mutable [("p", .list [.string "x", .ofInt 5])]
    let s : Subject := ⟨{}, value, .ofString "$"⟩
    let element : Finding :=
      ⟨((s.path.child (.branch 0)).child (.member "p")).child (.element 1),
        .conjunct 0 "type" (.mistyped "integer" "string"), "type", .ofInt 5, some "string"⟩
    let member : Finding :=
      ⟨s.path.child (.member "q"), .clause .consequent "required" (.missing "q"), "then", value,
        some "required"⟩
    (compileSchema Rule.builtins .strict placedSchema).result = .ok placedNode ∧ value.JsonLike ∧
    (evaluate s placedNode).result = .ok [element, member] ∧
    (∃ steps, element.path.text = steps.foldl Path.stepText "$" ∧ element.Meets value steps) ∧
    ∃ steps, member.path.text = steps.foldl Path.stepText "$" ∧ member.Meets value steps := by
  intro value s element member
  have compiled : (compileSchema Rule.builtins .strict placedSchema).result = .ok placedNode := rfl
  have json : value.JsonLike := by
    refine .object (by decide) fun m hm => ?_
    obtain rfl := List.mem_singleton.mp hm
    refine .array fun x hx => ?_
    rcases List.mem_pair.mp hx with rfl | rfl
    · exact .string "x"
    · exact .number _
  have run : (evaluate s placedNode).result = .ok [element, member] := rfl
  have located := evaluate_located compiled json run
  exact ⟨compiled, json, run, located _ (.head _), located _ (.tail _ (.head _))⟩

end Rules

end Conform
