import Conform.Proofs.Rules.Alike
import Conform.Proofs.Schema.Paired
import Conform.Proofs.Schema.Vocabulary

/-! Keys that nobody checks are inert. A schema without them compiles strictly where the schema with
them compiles in the other modes, to a tree that holds the same at every node. -/
namespace Conform

/-- Rules with every built-in one in its own place, and others under other names. -/
def Rule.Full (rules : Listing Rule) : Prop :=
  ∀ k : Keyword, Listing.get? k.name rules = some (.of k)

namespace Schema

section

variable (rules : Listing Rule)

/-- Whether something is done about a key, be it that it is refused. -/
def heeded (key : String) : Bool := key == referenceKey || (Listing.get? key rules).isSome

mutual

def stripMembers : List (String × Value) → List (String × Value)
  | [] => []
  | (key, v) :: ms =>
    let rest := stripMembers ms
    if heeded rules key then (key, stripUnder (Keyword.ofName? key) v) :: rest else rest

def stripUnder : Option Keyword → Value → Value
  | some .properties, .object a ms => .object a (stripEach ms)
  | some .patternProperties, .object a ms => .object a (stripEach ms)
  | some .dependencies, .object a ms => .object a (stripEach ms)
  | some .items, .array a xs => .array a (stripItems xs)
  | some (.combine _), .array a xs => .array a (stripItems xs)
  | some .additionalProperties, .object a ms => .object a (stripMembers ms)
  | some .items, .object a ms => .object a (stripMembers ms)
  | some .negation, .object a ms => .object a (stripMembers ms)
  | some (.clause _), .object a ms => .object a (stripMembers ms)
  | _, v => v

def stripEach : List (String × Value) → List (String × Value)
  | [] => []
  | (name, .object a ms) :: rest => (name, .object a (stripMembers ms)) :: stripEach rest
  | m :: rest => m :: stripEach rest

def stripItems : List Value → List Value
  | [] => []
  | .object a ms :: rest => .object a (stripMembers ms) :: stripItems rest
  | v :: rest => v :: stripItems rest

end

theorem stripMembers_of_heeded {key : String} {v : Value} {ms : List (String × Value)}
    (h : heeded rules key = true) : stripMembers rules ((key, v) :: ms) =
      (key, stripUnder rules (Keyword.ofName? key) v) :: stripMembers rules ms := by
  rw [stripMembers]
  exact if_pos h

theorem stripMembers_of_not_heeded {key : String} {v : Value} {ms : List (String × Value)}
    (h : ¬heeded rules key = true) :
    stripMembers rules ((key, v) :: ms) = stripMembers rules ms := by
  rw [stripMembers]
  exact if_neg h

/-- A schema without the keys that are neither checked nor refused, at every schema position. -/
def strip : Value → Value
  | .object a ms => .object a (stripMembers rules ms)
  | v => v

theorem strip_of_other {v : Value} (h : v.isObject = false) : strip rules v = v := by
  cases v
  case object => cases h
  all_goals rfl

theorem onSchemas_strip : Compile.OnSchemas (strip rules) where
  object _ ms := ⟨stripMembers rules ms, rfl⟩
  empty _ := rfl
  other _ := strip_of_other rules

theorem stripEach_eq_map (ms : List (String × Value)) :
    stripEach rules ms = ms.map fun m => (m.1, strip rules m.2) := by
  induction ms with
  | nil => rfl
  | cons m ms ih =>
    obtain ⟨name, v⟩ := m
    cases v <;> simp [stripEach, strip, ih]

theorem stripItems_eq_map (xs : List Value) : stripItems rules xs = xs.map (strip rules) := by
  induction xs with
  | nil => rfl
  | cons x xs ih => cases x <;> simp [stripItems, strip, ih]

theorem stripUnder_none (v : Value) : stripUnder rules none v = v := by
  cases v <;> rfl

theorem stripUnder_eq (k : Keyword) (v : Value) :
    stripUnder rules (some k) v = mapSubschemas (strip rules) k v := by
  cases k <;> cases v <;>
    simp [stripUnder, mapSubschemas, stripEach_eq_map, stripItems_eq_map, strip]

end

end Schema

namespace Compile

variable {rules : Listing Rule} {mode mode' : Mode} {exact spare : Prop} {xs ys : List Member}
  {key : String} {v : Value}

/-- Compiled members with the same bindings, and with related parameters under every keyword. -/
structure Trimmed (xs ys : List Member) : Prop where
  bindings : List.Forall₂ (Binding.Related Node.Alike) ((entriesOf xs).filterMap Entry.binding?)
    ((entriesOf ys).filterMap Entry.binding?)
  params : ∀ k : Keyword, Option.Rel (Param.Related Node.Alike)
    (Node.paramIn? k.name (entriesOf xs)) (Node.paramIn? k.name (entriesOf ys))

namespace Trimmed

theorem nil : Trimmed [] [] := ⟨.nil, fun _ => .none⟩

theorem note_left (h : Trimmed xs ys) : Trimmed (.note key v :: xs) ys := ⟨h.bindings, h.params⟩

theorem note_right (h : Trimmed xs ys) : Trimmed xs (.note key v :: ys) := ⟨h.bindings, h.params⟩

/-- What is only kept is no keyword, so nobody looks for it. -/
theorem kept_left {p : Param} (unknown : ∀ k : Keyword, k.name ≠ key) (h : Trimmed xs ys) :
    Trimmed (.entry (.mk key p none) :: xs) ys := by
  refine ⟨h.bindings, fun k => ?_⟩
  have other : key ≠ k.name := (unknown k).symm
  simpa [entriesOf, Node.paramIn?, Entry.keyword, other] using h.params k

theorem cons {rule : Rule} {p q : Param} (related : p.Related Node.Alike q) (h : Trimmed xs ys) :
    Trimmed (.entry (.mk key p (some rule)) :: xs) (.entry (.mk key q (some rule)) :: ys) := by
  refine ⟨.cons (.intro key rule related) h.bindings, fun k => ?_⟩
  exact Node.rel_paramIn?_cons related (h.params k)

/-- Nodes are put together from what their members have in common. -/
theorem assemble (h : Trimmed xs ys) :
    Paired exact spare Node.Alike (assemble mode xs).result (assemble mode' ys).result := by
  have names : ∀ k : Keyword, _ := fun k => Node.names_eq_of_rel (h.params k)
  unfold Compile.assemble
  simp only [names .patternProperties]
  exact Paired.bind_self _ fun ps => .done (.intro h.bindings (names .properties) rfl)

end Trimmed

end Compile

namespace Schema

variable {rules : Listing Rule} {mode : Mode}

open Compile

theorem paired_stripUnder {key : Option Keyword} {v : Value}
    (below : ∀ k, key = some k → ∀ sub ∈ subschemas k v,
      Pairs rules mode .strict False (mode = .strict) (strip rules) Node.Alike sub) :
    Paired False (mode = .strict) (Param.Related Node.Alike) (param rules mode key v).result
      (param rules .strict key (stripUnder rules key v)).result := by
  cases key with
  | none =>
    rw [stripUnder_none, param, param]
    exact .done (.plain _)
  | some k =>
    rw [stripUnder_eq]
    exact paired_param (onSchemas_strip rules) False.elim (fun _ _ h => h.hasRules_eq) (below k rfl)

/-- Member by member: what nobody checks is dropped on one side before compilation and on the other
side after it. -/
theorem paired_members (full : Rule.Full rules) {ms : List (String × Value)}
    (below : ∀ k v, (Keyword.name k, v) ∈ ms → ∀ sub ∈ subschemas k v,
      Pairs rules mode .strict False (mode = .strict) (strip rules) Node.Alike sub) :
    Paired False (mode = .strict) Trimmed (members rules mode ms).result
      (members rules .strict (stripMembers rules ms)).result := by
  induction ms with
  | nil => exact .done .nil
  | cons m ms ih =>
    obtain ⟨key, v⟩ := m
    have rest := ih fun k v mem => below k v (.tail _ mem)
    rw [members]
    by_cases known : key = referenceKey
    · rw [stripMembers_of_heeded rules (by simp [heeded, known]), members]
      simp only [known, if_true]
      exact .failed False.elim
    by_cases note : key ∈ descriptiveKeys
    · simp only [known, note, if_true, if_false, Logged.pure_bind]
      by_cases heed : heeded rules key = true
      · rw [stripMembers_of_heeded rules heed, members]
        simp only [known, note, if_true, if_false, Logged.pure_bind]
        exact rest.bind fun _ _ h => .done h.note_left.note_right
      · rw [stripMembers_of_not_heeded rules heed]
        exact rest.bind_left fun _ _ h => .done h.note_left
    simp only [known, note, if_false]
    cases found : Listing.get? key rules with
    | none =>
      rw [stripMembers_of_not_heeded rules (by simp [heeded, known, found])]
      by_cases strict : mode = .strict
      · rw [Logged.result_bind, strict]
        exact .error_left rfl id
      · have kept : (unruled mode key v).result = .ok (.entry (.mk key (.plain v.freeze) none)) :=
          result_unruled_eq_ok_iff.mpr ⟨strict, rfl⟩
        have unknown : ∀ k : Keyword, k.name ≠ key := by
          rintro k rfl
          cases (full k).symm.trans found
        rw [Logged.result_bind, kept]
        exact rest.bind_left fun _ _ h => .done (h.kept_left unknown)
    | some rule =>
      rw [stripMembers_of_heeded rules (by simp [heeded, found]), members]
      simp only [known, note, found, if_false]
      have first := paired_stripUnder fun k hk =>
        below k v (Keyword.ofName?_eq_some_iff.mp hk ▸ .head _)
      refine (first.map (S := fun x y => ∃ p q, x = .entry (.mk key p (some rule)) ∧
        y = .entry (.mk key q (some rule)) ∧ p.Related Node.Alike q) ?_).bind ?_
      · exact fun p q related => ⟨p, q, rfl, rfl, related⟩
      · rintro _ _ ⟨p, q, rfl, rfl, related⟩
        exact rest.bind fun _ _ h => .done (h.cons related)

/-- Stripping commutes with compilation at every depth. -/
theorem pairs_strip (full : Rule.Full rules) (mode : Mode) (raw : Value) :
    Pairs rules mode .strict False (mode = .strict) (strip rules) Node.Alike raw := by
  induction raw using Schema.induction with
  | object a ms below => exact (paired_members full below).bind fun _ _ h => h.assemble
  | other v h =>
    unfold Pairs
    rw [strip_of_other rules h]
    cases v
    case object => cases h
    all_goals exact .refuse _

end Schema

end Conform
