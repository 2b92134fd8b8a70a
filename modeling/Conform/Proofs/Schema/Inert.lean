import Conform.Proofs.Rules.Truncation
import Conform.Proofs.Schema.Strip

/-! What the mode of a compilation is good for. It decides whether keys that nobody knows are refused;
otherwise it leaves nothing behind but its name in the nodes. -/
namespace Conform

namespace Compile

/-- Members of one kind, whose parameters are related. -/
inductive Member.Related (R : Node → Node → Prop) : Member → Member → Prop
  | note (key : String) (v : Value) : Related R (.note key v) (.note key v)
  | entry {e f : Entry} (entries : Entry.Related R e f) : Related R (.entry e) (.entry f)

variable {R : Node → Node → Prop} {xs ys : List Member}

theorem related_entriesOf (h : List.Forall₂ (Member.Related R) xs ys) :
    List.Forall₂ (Entry.Related R) (entriesOf xs) (entriesOf ys) := by
  induction h with
  | nil => exact .nil
  | cons first _ ih =>
    cases first with
    | note => exact ih
    | entry entries => exact .cons entries ih

theorem notesOf_eq (h : List.Forall₂ (Member.Related R) xs ys) : notesOf xs = notesOf ys := by
  induction h with
  | nil => rfl
  | cons first _ ih =>
    cases first with
    | note => exact congrArg (_ :: ·) ih
    | entry => exact ih

theorem paired_assemble {exact spare : Prop} {mode mode' : Mode}
    (h : List.Forall₂ (Member.Related Node.SameButMode) xs ys) :
    Paired exact spare Node.SameButMode (assemble mode xs).result (assemble mode' ys).result := by
  have entries := related_entriesOf h
  have names := Node.names_eq_of_rel
    (Node.rel_paramIn? entries Keyword.patternProperties.name)
  unfold assemble
  simp only [names]
  exact Paired.bind_self _ fun _ => .done (.intro entries rfl (notesOf_eq h))

end Compile

namespace Schema

open Compile Rules

variable {rules : Listing Rule} {mode mode' : Mode}

theorem onSchemas_id : OnSchemas id where
  object _ ms := ⟨ms, rfl⟩
  empty _ := rfl
  other _ _ := rfl

theorem paired_members_mode (milder : mode' = .strict → mode = .strict)
    {ms : List (String × Value)} (below : ∀ k v, (Keyword.name k, v) ∈ ms → ∀ sub ∈ subschemas k v,
      Pairs rules mode mode' (mode ≠ .strict) (mode = .strict) id Node.SameButMode sub) :
    Paired (mode ≠ .strict) (mode = .strict) (List.Forall₂ (Member.Related Node.SameButMode))
      (members rules mode ms).result (members rules mode' ms).result := by
  induction ms with
  | nil => exact .done .nil
  | cons m ms ih =>
    obtain ⟨key, v⟩ := m
    have rest := ih fun k v mem => below k v (.tail _ mem)
    rw [members, members]
    refine Paired.bind (R := Member.Related Node.SameButMode) ?_ fun _ _ first =>
      rest.bind fun _ _ rest => .done (.cons first rest)
    split
    · exact .refuse _
    split
    · exact .done (.note key _)
    cases found : Listing.get? key rules with
    | none =>
      by_cases strict : mode = .strict
      · rw [strict]
        exact .error_left rfl fun h => h rfl
      · have kept : ∀ mode, mode ≠ .strict → (unruled mode key v).result =
            .ok (.entry (.mk key (.plain v.freeze) none)) := fun mode h =>
          result_unruled_eq_ok_iff.mpr ⟨h, rfl⟩
        show Paired _ _ _ (unruled mode key v).result (unruled mode' key v).result
        rw [kept mode strict, kept mode' fun h => strict (milder h)]
        exact .done (.entry (.intro key none (.plain _)))
    | some rule =>
      refine Paired.map (R := Param.Related Node.SameButMode) ?_ fun p q related =>
        .entry (.intro key (some rule) related)
      cases hk : Keyword.ofName? key with
      | none =>
        rw [param, param]
        exact .done (.plain _)
      | some k =>
        have inside := paired_param onSchemas_id (fun _ _ => rfl)
          (fun _ _ h => h.alike.hasRules_eq)
          (below k v (Keyword.ofName?_eq_some_iff.mp hk ▸ .head _))
        rwa [mapSubschemas_id] at inside

variable (rules mode) in
/-- Only a strict compilation fails where another does not, and others fail for the same reason. -/
theorem pairs_mode (milder : mode' = .strict → mode = .strict) (raw : Value) :
    Pairs rules mode mode' (mode ≠ .strict) (mode = .strict) id Node.SameButMode raw := by
  induction raw using Schema.induction with
  | object a ms below =>
    exact (paired_members_mode milder below).bind fun _ _ h => paired_assemble h
  | other v h =>
    cases v
    case object => cases h
    all_goals exact .refuse _

/-- Keys that nobody checks are inert: loose and warn compilation accept a schema where strict
compilation accepts the stripped one, and give a tree that holds and does the same. What strict
compilation accepts differs in the other modes by their name alone, and so do these two. -/
theorem unheeded_keys_inert (full : Rule.Full rules) (raw : Value) :
    (∀ mode ≠ .strict, (∃ n, (compileSchema rules mode raw).result = .ok n) ↔
      ∃ m, (compileSchema rules .strict (strip rules raw)).result = .ok m) ∧
    (∀ mode n m, (compileSchema rules mode raw).result = .ok n →
      (compileSchema rules .strict (strip rules raw)).result = .ok m →
        n.Alike m ∧ ∀ s, evaluate s n = evaluate s m) ∧
    (∀ n, (compileSchema rules .strict raw).result = .ok n → ∀ mode,
      ∃ m, (compileSchema rules mode raw).result = .ok m ∧
        n.SameButMode m ∧ ∀ s, evaluate s n = evaluate s m) ∧
    (∀ e, (compileSchema rules .loose raw).result = .error e ↔
      (compileSchema rules .warn raw).result = .error e) ∧
    ∀ n m, (compileSchema rules .loose raw).result = .ok n →
      (compileSchema rules .warn raw).result = .ok m →
        n.SameButMode m ∧ ∀ s, evaluate s n = evaluate s m := by
  have stripped : ∀ mode, _ := fun mode =>
    (pairs_strip full mode raw).compileSchema (onSchemas_strip rules)
  have moded : ∀ mode mode' : Mode, (mode' = .strict → mode = .strict) → _ := fun mode mode' milder =>
    (pairs_mode rules mode milder raw).compileSchema onSchemas_id
  have lenient := moded .loose .warn nofun
  refine ⟨fun mode strict => (stripped mode).exists_ok_iff strict, ?_, ?_,
    lenient.eq_error_iff nofun, ?_⟩
  · intro mode n m hn hm
    have alike := (stripped mode).related hn hm
    exact ⟨alike, evaluate_of_alike alike⟩
  · intro n hn mode
    obtain ⟨m, hm, same⟩ := (moded .strict mode fun _ => rfl).exists_of_ok hn
    exact ⟨m, hm, same, evaluate_of_alike same.alike⟩
  · intro n m hn hm
    have same := lenient.related hn hm
    exact ⟨same, evaluate_of_alike same.alike⟩

/-- A user's rule, and keys that nobody knows beside it and below it. -/
def laxSchema : Value :=
  .object .mutable [("title", .string "lax"), ("unknown", .object .mutable [("type", .ofInt 5)]),
    ("not", .object .mutable [("note", .null), ("required", .list [.string "b"])]),
    ("even", .object .mutable [("note", .null)])]

def bareSchema : Value :=
  .object .mutable [("not", .object .mutable [("required", .list [.string "b"])]),
    ("even", .object .mutable [("note", .null)])]

theorem full_evenRules : Rule.Full evenRules := by
  intro k
  have other : k.name ≠ "even" := by
    intro h
    have known := Keyword.ofName?_eq_some_iff.mpr h
    cases known
  rw [evenRules, Listing.get?_put_of_ne other, Rule.get?_builtins, Keyword.ofName?_name]
  rfl

/-- What stands under the user's rule is not looked into. -/
theorem unheeded_keys_inert_laxSchema :
    Rule.Full evenRules ∧ strip evenRules laxSchema = bareSchema ∧
    (¬∃ n, (compileSchema evenRules .strict laxSchema).result = .ok n) ∧
    ∃ n m, (compileSchema evenRules .loose laxSchema).result = .ok n ∧
      (compileSchema evenRules .strict bareSchema).result = .ok m ∧
      n.Alike m ∧ ∀ s, evaluate s n = evaluate s m := by
  obtain ⟨accepts, alike, -⟩ := unheeded_keys_inert full_evenRules laxSchema
  have stripped : strip evenRules laxSchema = bareSchema := rfl
  have bare : ∃ m, (compileSchema evenRules .strict bareSchema).result = .ok m := ⟨_, rfl⟩
  have refused : ¬∃ n, (compileSchema evenRules .strict laxSchema).result = .ok n := by
    rintro ⟨n, hn⟩
    cases hn
  rw [stripped] at accepts alike
  obtain ⟨n, hn⟩ := (accepts .loose nofun).mpr bare
  obtain ⟨m, hm⟩ := bare
  exact ⟨full_evenRules, stripped, refused, n, m, hn, hm, alike .loose n m hn hm⟩

end Schema

end Conform
