import Conform.Proofs.Rules.Terms
import Conform.Proofs.Schema.Paired

/-! Closed objects opened in the schema. A schema with all its closed objects opened compiles beside
the schema itself, and a run on it that does not allow unknown members ends as a run on the other
that does. -/
namespace Conform

namespace Schema

mutual

def openMembers : List (String × Value) → List (String × Value)
  | [] => []
  | (key, v) :: ms => (key, openUnder (Keyword.ofName? key) v) :: openMembers ms

def openUnder : Option Keyword → Value → Value
  | some .additionalProperties, .bool _ => .bool true
  | some .additionalProperties, .object a ms => .object a (openMembers ms)
  | some .properties, .object a ms => .object a (openEach ms)
  | some .patternProperties, .object a ms => .object a (openEach ms)
  | some .dependencies, .object a ms => .object a (openEach ms)
  | some .items, .object a ms => .object a (openMembers ms)
  | some .items, .array a xs => .array a (openItems xs)
  | some (.combine _), .array a xs => .array a (openItems xs)
  | some .negation, .object a ms => .object a (openMembers ms)
  | some (.clause _), .object a ms => .object a (openMembers ms)
  | _, v => v

def openEach : List (String × Value) → List (String × Value)
  | [] => []
  | (name, .object a ms) :: rest => (name, .object a (openMembers ms)) :: openEach rest
  | m :: rest => m :: openEach rest

def openItems : List Value → List Value
  | [] => []
  | .object a ms :: rest => .object a (openMembers ms) :: openItems rest
  | v :: rest => v :: openItems rest

end

/-- A schema that says `true` wherever it said `false` of additional members, at every schema
position. -/
def opened : Value → Value
  | .object a ms => .object a (openMembers ms)
  | v => v

theorem opened_of_other {v : Value} (h : v.isObject = false) : opened v = v := by
  cases v
  case object => cases h
  all_goals rfl

theorem onSchemas_opened : Compile.OnSchemas opened where
  object _ ms := ⟨openMembers ms, rfl⟩
  empty _ := rfl
  other _ := opened_of_other

theorem openEach_eq_map (ms : List (String × Value)) :
    openEach ms = ms.map fun m => (m.1, opened m.2) := by
  induction ms with
  | nil => rfl
  | cons m ms ih =>
    obtain ⟨name, v⟩ := m
    cases v <;> simp [openEach, opened, ih]

theorem openItems_eq_map (xs : List Value) : openItems xs = xs.map opened := by
  induction xs with
  | nil => rfl
  | cons x xs ih => cases x <;> simp [openItems, opened, ih]

theorem openUnder_none (v : Value) : openUnder none v = v := by
  cases v <;> rfl

theorem openUnder_eq {k : Keyword} (h : k ≠ .additionalProperties) (v : Value) :
    openUnder (some k) v = mapSubschemas opened k v := by
  cases k with
  | additionalProperties => exact absurd rfl h
  | _ => cases v <;> simp [openUnder, mapSubschemas, openEach_eq_map, openItems_eq_map, opened]

end Schema

namespace Compile

open Rules Schema

variable {mode own : Mode} {formats : Listing Checker}

/-- Compiled members whose entries end alike under two terms. -/
def MembersConcur (t u : Terms) (xs ys : List Member) : Prop :=
  List.Forall₂ (EntriesConcur t u) (entriesOf xs) (entriesOf ys)

/-- Parameters that make a built-in rule end alike under two terms, in the place of its entry. -/
def ParamsConcur (t u : Terms) (k : Keyword) (p q : Param) : Prop :=
  EntriesConcur t u (.mk k.name p (some (.of k))) (.mk k.name q (some (.of k)))

theorem paired_assemble_concur {t u : Terms} {xs ys : List Member} (h : MembersConcur t u xs ys) :
    Paired False False (Concur t u) (assemble own xs).result (assemble own ys).result := by
  have names := names?_of_concur h Keyword.patternProperties.name
  unfold assemble
  simp only [names]
  exact Paired.bind_self _ fun _ => .done (concur_of_entries h)

/-- A schema and its opened form, run on terms that differ in nothing but what they allow. -/
abbrev PairsOpened (own mode : Mode) (formats : Listing Checker) (raw : Value) : Prop :=
  Pairs Rule.builtins own own False False opened
    (Concur ⟨mode, formats, true⟩ ⟨mode, formats, false⟩) raw

theorem paired_openUnder {k : Keyword} {v : Value}
    (below : ∀ sub ∈ subschemas k v, PairsOpened own mode formats sub) :
    Paired False False (ParamsConcur ⟨mode, formats, true⟩ ⟨mode, formats, false⟩ k)
      (param Rule.builtins own (some k) v).result
      (param Rule.builtins own (some k) (openUnder (some k) v)).result := by
  by_cases flagged : k = .additionalProperties
  · subst flagged
    cases v with
    | object a ms =>
      have inside := paired_within .additional rfl (below _ (.head _))
      rw [openUnder, param, param]
      exact inside.map fun _ _ concur => .ruled _ (.node concur) (concurs_additional concur)
    | bool b =>
      -- the one place where the terms count: a closed object on the left, an open one on the right
      refine .done (.flag .additionalProperties fun s => ?_)
      obtain ⟨frame, value, path⟩ := s
      cases b <;> cases value <;> rfl
    | _ => exact .refuse _
  · rw [openUnder_eq flagged]
    have inside := paired_param onSchemas_opened False.elim (fun _ _ h => h.rules) below
    refine inside.imp fun p q related => .ruled k related (concurs_of_related related ?_)
    exact fun v _ => concurs_plain (fun _ _ => rfl) fun closed => absurd closed flagged

/-- Member by member: what is no built-in keyword stays as it is on both sides. -/
theorem paired_openMembers {ms : List (String × Value)}
    (below : ∀ k v, (Keyword.name k, v) ∈ ms → ∀ sub ∈ subschemas k v,
      PairsOpened own mode formats sub) :
    Paired False False (MembersConcur ⟨mode, formats, true⟩ ⟨mode, formats, false⟩)
      (members Rule.builtins own ms).result (members Rule.builtins own (openMembers ms)).result := by
  induction ms with
  | nil => exact .done .nil
  | cons m ms ih =>
    obtain ⟨key, v⟩ := m
    have rest := ih fun k v mem => below k v (.tail _ mem)
    rw [openMembers, members, members]
    by_cases known : key = referenceKey
    · simp only [known, if_true]
      exact .failed False.elim
    by_cases note : key ∈ descriptiveKeys
    · simp only [known, note, if_true, if_false, Logged.pure_bind]
      exact rest.bind fun _ _ h => .done h
    simp only [known, note, if_false, Rule.get?_builtins]
    cases named : Keyword.ofName? key with
    | none =>
      rw [openUnder_none]
      by_cases strict : own = .strict
      · rw [Logged.result_bind, Logged.result_bind, strict]
        exact .failed False.elim
      · have kept : (unruled own key v).result = .ok (.entry (.mk key (.plain v.freeze) none)) :=
          result_unruled_eq_ok_iff.mpr ⟨strict, rfl⟩
        rw [Logged.result_bind, Logged.result_bind]
        simp only [Option.map_none, kept]
        exact rest.bind fun _ _ h => .done (.cons (.kept key _) h)
    | some k =>
      obtain rfl := Keyword.ofName?_eq_some_iff.mp named
      have first := paired_openUnder (below k v (.head _))
      refine (first.map (S := fun x y => ∃ p q, x = .entry (.mk k.name p (some (.of k))) ∧
        y = .entry (.mk k.name q (some (.of k))) ∧
          ParamsConcur ⟨mode, formats, true⟩ ⟨mode, formats, false⟩ k p q) ?_).bind ?_
      · exact fun p q concur => ⟨p, q, rfl, rfl, concur⟩
      · rintro _ _ ⟨p, q, rfl, rfl, concur⟩
        exact rest.bind fun _ _ h => .done (.cons concur h)

/-- Opening commutes with compilation at every depth. -/
theorem pairs_opened (own mode : Mode) (formats : Listing Checker) (raw : Value) :
    PairsOpened own mode formats raw := by
  induction raw using Schema.induction with
  | object a ms below =>
    exact (paired_openMembers below).bind fun _ _ h => paired_assemble_concur h
  | other v h =>
    unfold PairsOpened Pairs
    rw [opened_of_other h]
    cases v
    case object => cases h
    all_goals exact .refuse _

end Compile

namespace Rules

open Compile Schema

variable {own : Mode} {raw : Value} {n : Node}

/-- To allow unknown members is to open every closed object: what a compiled schema finds of a value
where they are allowed, its opened form finds where they are not, in whatever mode and with whatever
formats, at any path, and whether or not the run stops at its first finding. -/
theorem evaluate_opened (compiled : (compileSchema Rule.builtins own raw).result = .ok n) :
    ∃ m, (compileSchema Rule.builtins own (opened raw)).result = .ok m ∧
      ∀ (s : Subject) mode formats, (evaluate (s.on ⟨mode, formats, true⟩) n).result =
        (evaluate (s.on ⟨mode, formats, false⟩) m).result := by
  have pairs : ∀ mode formats, _ := fun mode formats =>
    (pairs_opened own mode formats raw).compileSchema onSchemas_opened
  obtain ⟨m, hm, -⟩ := (pairs .strict []).exists_of_ok compiled
  exact ⟨m, hm, fun s mode formats => ((pairs mode formats).related compiled hm).result s⟩

/-- A closed object under a negation, and one among the exclusive schemas beside it. -/
def shutSchema : Value :=
  .object .mutable [("not", .object .mutable [("additionalProperties", .bool false)]),
    ("oneOf", .array .mutable [.object .mutable [("additionalProperties", .bool false)],
      .object .mutable [("type", .string "object")]])]

def shutNode : Node :=
  .mk .loose
    [.mk "not" (.node (.mk .loose [.mk "additionalProperties" (.plain (.bool false))
      (some (.of .additionalProperties))] [] [])) (some (.of .negation)),
    .mk "oneOf" (.nodes [.mk .loose [.mk "additionalProperties" (.plain (.bool false))
        (some (.of .additionalProperties))] [] [],
      .mk .loose [.mk "type" (.plain (.string "object")) (some (.of .type))] [] []])
      (some (.of (.combine .oneOf)))] [] []

/-- What passes while unknown members are refused fails twice once they are allowed, and as often
against the opened schema. -/
theorem evaluate_opened_shutNode :
    let s : Subject := ⟨{}, .object .mutable [("a", .null)], .ofString "$"⟩
    (compileSchema Rule.builtins .loose shutSchema).result = .ok shutNode ∧
    (evaluate (s.on ⟨.loose, [], false⟩) shutNode).result = .ok [] ∧
    ∃ m, (compileSchema Rule.builtins .loose (opened shutSchema)).result = .ok m ∧
      (evaluate (s.on ⟨.loose, [], false⟩) m).result = .ok
        [⟨s.path, .negated, "not", s.value, none⟩,
          ⟨s.path, .severalHold, "oneOf", s.value, some "2"⟩] := by
  intro s
  have compiled : (compileSchema Rule.builtins .loose shutSchema).result = .ok shutNode := rfl
  obtain ⟨m, hm, alike⟩ := evaluate_opened compiled
  exact ⟨compiled, rfl, m, hm, (alike s .loose []).symm.trans rfl⟩

end Rules

end Conform
