import Conform.Proofs.Rules.Stopping

/-! A run that stops gives the first finding of the run that does not. Both runs are followed side
by side, entry by entry, through every tree that compilation can give. -/
namespace Conform

/-- A rule that does as if it could not see whether the run is to stop. -/
def CustomRule.IgnoresStop (r : CustomRule) : Prop :=
  ∀ (call : Call) (stop : Bool),
    r.apply { call with frame := { call.frame with stopAtFirst := stop } } = r.apply call

def Handler.IgnoresStop : Handler → Prop
  | .builtin _ => True
  | .custom r => r.IgnoresStop

def Node.IgnoresStop (n : Node) : Prop :=
  n.Every fun m => ∀ e ∈ m.entries, ∀ r, e.rule = some r → r.handler.IgnoresStop

namespace Rules

variable {s : Subject}

theorem cut_runEntry {e : Entry} (usable : e.param.Usable)
    (ignores : ∀ r, e.rule = some r → r.handler.IgnoresStop) (ih : ∀ n ∈ e.param.subnodes, Cuts n) :
    FaultCut (runEntry s.exhaustive e).result (runEntry s.stopping e).result := by
  obtain ⟨keyword, p, _ | ⟨handler, kind⟩⟩ := e
  · rw [runEntry, runEntry]
    exact .refl _
  · rw [runEntry, runEntry]
    refine BreakCut.settle ?_
    cases handler with
    | builtin k => exact cut_runRule usable ih
    | custom r =>
      have same := ignores ⟨.custom r, kind⟩ rfl ⟨s.frame, s.value, p.view, s.path⟩
      refine Cut.of_eq (congrArg Logged.result ?_)
      exact congrArg (ofVerdict keyword s) ((same false).trans (same true).symm)

theorem cut_runEntries {es : List Entry} (h : ∀ e ∈ es,
    FaultCut (runEntry s.exhaustive e).result (runEntry s.stopping e).result) :
    FaultCut (runEntries s.exhaustive es).result (runEntries s.stopping es).result := by
  induction es with
  | nil =>
    rw [runEntries, runEntries]
    exact .refl _
  | cons e es ih =>
    rw [List.forall_mem_cons] at h
    rw [result_runEntries_cons, result_runEntries_cons]
    simpa [Subject.exhaustive, Subject.stopping] using
      h.1.bind (List.take 1) (ih h.2) (fun _ _ => trivial) fun _ => List.head?_take

/-- Nodes whose rules and parameters are in order run alike up to the first finding. -/
theorem cuts_of_every {n : Node} (usable : n.Every fun m => ∀ e ∈ m.entries, e.param.Usable)
    (ignores : n.IgnoresStop) : Cuts n := by
  induction n using Node.induction with
  | step n ih =>
    intro s
    rw [evaluate_eq, evaluate_eq]
    change FaultCut (conditionOf (s.enter _ _).exhaustive _ >>= _).result
      (conditionOf (s.enter _ _).stopping _ >>= _).result
    -- a condition is run to its first finding only, so both runs go on with the same outcome
    rw [conditionOf_exhaustive]
    refine Cut.of_bind fun condition _ => ?_
    refine cut_runEntries (s := (s.enter n.entries n.patterns).under condition) fun e he => ?_
    refine cut_runEntry (usable.root e he) (ignores.root e he) fun m hm => ?_
    have below := Node.mem_subnodes_of_entry he hm
    exact ih m below (usable.of_mem below) (ignores.of_mem below)

/-- A run that stops gives one finding at most. -/
theorem length_le_one_of_stopping {es : List Entry} {found : List Finding}
    (h : (runEntries s.stopping es).result = .ok found) : found.length ≤ 1 := by
  induction es generalizing found with
  | nil =>
    cases h
    exact Nat.zero_le 1
  | cons e es ih =>
    rw [result_runEntries_cons] at h
    cases hx : (runEntry s.stopping e).result with
    | error f => simp [hx, bind, Except.bind] at h
    | ok first =>
      cases first with
      | nil =>
        cases hr : (runEntries s.stopping es).result with
        | error f => simp [hx, hr, bind, Except.bind, Except.map] at h
        | ok more =>
          obtain rfl : more = found := by
            simpa [hx, hr, bind, Except.bind, Except.map] using h
          exact ih hr
      | cons f fs =>
        rw [hx] at h
        obtain rfl : [f] = found := Except.ok.inj h
        exact Nat.le_refl 1

theorem length_le_one_of_evaluate_stopping {n : Node} {found : List Finding}
    (h : (evaluate s.stopping n).result = .ok found) : found.length ≤ 1 := by
  rw [evaluate_eq, Logged.result_bind_eq_ok_iff] at h
  obtain ⟨condition, -, h⟩ := h
  exact length_le_one_of_stopping (s := (s.enter n.entries n.patterns).under condition) h

/-- Stopping at the first finding is cutting the findings off after the first: on success nothing
else differs, and a stopped run fails only as the other one does. -/
theorem evaluate_stopping {rules : Listing Rule} {mode : Mode} {raw : Value} {n : Node}
    (compiled : (compileSchema rules mode raw).result = .ok n) (ignores : n.IgnoresStop)
    (s : Subject) :
    (∀ found, (evaluate s.exhaustive n).result = .ok found →
      (evaluate s.stopping n).result = .ok (found.take 1)) ∧
    ∀ e, (evaluate s.stopping n).result = .error e →
      (evaluate s.exhaustive n).result = .error e := by
  have h := result_compileSchema_eq_ok_iff.mp compiled
  have cut := cuts_of_every (h.every fun _ _ h => h.usable) ignores s
  have short : ∀ found, (evaluate s.stopping n).result = .ok found → found.length ≤ 1 :=
    fun _ => length_le_one_of_evaluate_stopping
  generalize (evaluate s.exhaustive n).result = x, (evaluate s.stopping n).result = y
    at cut short ⊢
  cases cut with
  | failed e => exact ⟨nofun, fun _ h => h⟩
  | early => exact ⟨nofun, nofun⟩
  | @alike all some first =>
    refine ⟨fun found hf => ?_, nofun⟩
    obtain rfl := Except.ok.inj hf
    have one := short some rfl
    congr 1
    match some, all, first with
    | [], [], _ => rfl
    | [f], g :: gs, first => simpa using first
    | f :: f' :: fs, _, _ => simp at one

/-- A rule of a user that asks for an even number and looks at the value alone. -/
def evenRule : CustomRule where
  label := "even"
  apply call :=
    match call.value.toInt? with
    | some i => if i % 2 = 0 then .passed else .failed
    | none => .failed

def evenRules : Listing Rule := Rule.builtins.put "even" ⟨.custom evenRule, .custom⟩

/-- A member that itself must have two members, and the user's rule after it. -/
def evenSchema : Value :=
  .object .mutable [("properties", .object .mutable [("p",
    .object .mutable [("required", .list [.string "a", .string "b"])])]), ("even", .bool true)]

def evenNode : Node :=
  .mk .strict
    [.mk "properties" (.named [("p", .mk .strict
        [.mk "required" (.plain (.array .frozen [.string "a", .string "b"]))
          (some ⟨.builtin .required, .structural⟩)] [] [])])
      (some ⟨.builtin .properties, .structural⟩),
    .mk "even" (.plain (.bool true)) (some ⟨.custom evenRule, .custom⟩)] [] []

theorem ignoresStop_evenNode : evenNode.IgnoresStop := by
  refine .intro (fun e he r hr => ?_) fun m hm => .intro (fun e he r hr => ?_) fun k hk => ?_
  · simp only [evenNode, Node.entries, List.mem_cons, List.not_mem_nil, or_false] at he
    rcases he with rfl | rfl <;> cases hr
    · trivial
    · exact fun _ _ => rfl
  all_goals
    simp only [evenNode, Node.subnodes, Node.entries, Param.subnodes, Entry.param,
      List.flatMap_cons, List.flatMap_nil, List.map_cons, List.map_nil, List.append_nil,
      List.mem_singleton] at hm
    subst hm
  · simp only [Node.entries, List.mem_singleton] at he
    subst he
    cases hr
    trivial
  · cases hk

/-- Three findings to the end and the first of them when stopped. -/
theorem evaluate_stopping_evenNode :
    let s : Subject := ⟨{}, .object .mutable [("p", .object .mutable [])], .ofString "$"⟩
    let missing (name : String) : Finding :=
      { path := (s.path.child (.member "p")).child (.member name), reason := .missing name,
        tag := "required", param := some name }
    (compileSchema evenRules .strict evenSchema).result = .ok evenNode ∧ evenNode.IgnoresStop ∧
    (evaluate s.exhaustive evenNode).result =
      .ok [missing "a", missing "b", ⟨s.path, .rejected "even", "even", s.value, none⟩] ∧
    (evaluate s.stopping evenNode).result = .ok [missing "a"] := by
  intro s missing
  have compiled : (compileSchema evenRules .strict evenSchema).result = .ok evenNode := rfl
  have all : (evaluate s.exhaustive evenNode).result =
      .ok [missing "a", missing "b", ⟨s.path, .rejected "even", "even", s.value, none⟩] := rfl
  exact ⟨compiled, ignoresStop_evenNode, all,
    (evaluate_stopping compiled ignoresStop_evenNode s).1 _ all⟩

end Rules

end Conform
