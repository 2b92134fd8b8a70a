import Conform.Proofs.Rules.Truncation
import Conform.Proofs.Schema.Acceptance
import Conform.Proofs.Value.Json

/-! What a compiled tree keeps of its schema. Every node holds the keys of one schema object in the
order they stand there, notes apart, each with its rule; what stands under a keyword is filled with
the nodes of its schemas, under the same names or in the same order. -/
namespace Conform

/-- What a keyword's value leaves in a node, given what its schemas turn into. -/
inductive Filled (R : Value → Node → Prop) : Keyword → Value → Param → Prop
  | bare {k : Keyword} {v w : Value} (leaf : ∀ u, Schema.subschemas k u = []) :
    Filled R k v (.plain w)
  | closed {b : Bool} : Filled R .additionalProperties (.bool b) (.plain (.bool b))
  | named {k : Keyword} {a : Access} {ms : List (String × Value)} {ns : List (String × Node)}
    (keyword : k = .properties ∨ k = .patternProperties)
    (schemas : List.Forall₂ (Named R) ms ns) : Filled R k (.object a ms) (.named ns)
  | node {k : Keyword} {a : Access} {ms : List (String × Value)} {n : Node}
    (keyword : k = .additionalProperties ∨ k = .items ∨ k = .negation ∨ ∃ c, k = .clause c)
    (schema : R (.object a ms) n) : Filled R k (.object a ms) (.node n)
  | nodes {k : Keyword} {a : Access} {xs : List Value} {ns : List Node}
    (keyword : k = .items ∨ ∃ c, k = .combine c) (schemas : List.Forall₂ R xs ns) :
    Filled R k (.array a xs) (.nodes ns)
  | dependencies {a : Access} {ms : List (String × Value)} {ds : List (String × Dependency)}
    (schemas : List.Forall₂ (Named (Compile.DependencyOf R)) ms ds) :
    Filled R .dependencies (.object a ms) (.dependencies ds)

variable {rules : Listing Rule} {mode : Mode}

/-- What a node keeps of the members of its schema. -/
structure Node.Keeps (rules : Listing Rule) (mode : Mode) (ms : List (String × Value)) (n : Node) :
    Prop where
  inMode : n.mode = mode
  keywords : n.entries.map Entry.keyword = (Listing.names ms).filter (· ∉ descriptiveKeys)
  bindings : n.bindings.map (fun b => (b.keyword, b.rule)) =
    ((Listing.names ms).filter (· ∉ descriptiveKeys)).filterMap fun key =>
      (Listing.get? key rules).map fun r => (key, r)
  params : ∀ b ∈ n.bindings, n.param? b.keyword = some b.param
  /-- A key without a rule is left in no strict node. -/
  strict : mode = .strict → ∀ e ∈ n.entries, (Listing.get? e.keyword rules).isSome
  /-- Under a key that no keyword has stands what stood there. -/
  plain : ∀ key v, (key, v) ∈ ms → key ∉ descriptiveKeys → Keyword.ofName? key = none →
    n.param? key = some (.plain v.freeze)
  notes : n.notes = (ms.filter (·.1 ∈ descriptiveKeys)).map fun m => (m.1, m.2.freeze)
  apart : ∀ key ∈ Listing.names n.notes, n.param? key = none
  declared : n.declared =
    (((Listing.get? Keyword.properties.name ms).bind Value.members?).getD []).map (·.1)
  patterns : List.Forall₂ (fun name p => Pattern.compile name = .ok p)
    ((((Listing.get? Keyword.patternProperties.name ms).bind Value.members?).getD []).map (·.1))
    n.patterns

/-- A tree that keeps a schema, with all the schemas in it. -/
inductive Represents (rules : Listing Rule) (mode : Mode) : Value → Node → Prop
  | intro {a : Access} {ms : List (String × Value)} {n : Node} (own : n.Keeps rules mode ms)
    (inside : ∀ k v p, (Keyword.name k, v) ∈ ms → n.param? k.name = some p →
      Filled (Represents rules mode) k v p) : Represents rules mode (.object a ms) n

namespace Node

theorem paramIn?_eq_none {key : String} {es : List Entry} (h : ∀ e ∈ es, e.keyword ≠ key) :
    paramIn? key es = none := by
  induction es with
  | nil => rfl
  | cons e es ih =>
    rw [List.forall_mem_cons] at h
    rw [paramIn?, if_neg h.1]
    exact ih h.2

/-- Where keywords are distinct, every entry is found. -/
theorem paramIn?_of_mem {es : List Entry} {e : Entry} (distinct : (es.map Entry.keyword).Nodup)
    (mem : e ∈ es) : paramIn? e.keyword es = some e.param := by
  induction es with
  | nil => cases mem
  | cons f es ih =>
    rw [List.map_cons, List.nodup_cons] at distinct
    rcases List.mem_cons.mp mem with rfl | mem
    · exact if_pos rfl
    · have other : f.keyword ≠ e.keyword := fun same =>
        distinct.1 (same ▸ List.mem_map_of_mem mem)
      rw [paramIn?, if_neg other]
      exact ih distinct.2 mem

end Node

namespace Compile

variable {ms : List (String × Value)} {xs : List Member}

theorem keywords_entriesOf (h : List.Forall₂ (MemberOf rules mode) ms xs) :
    (entriesOf xs).map Entry.keyword = (Listing.names ms).filter (· ∉ descriptiveKeys) := by
  induction h with
  | nil => rfl
  | cons first _ ih =>
    unfold Listing.names entriesOf at ih ⊢
    cases first with
    | note _ note => simpa [note] using ih
    | kept _ entry | ruled _ entry => simpa [entry, Entry.keyword] using ih

theorem notesOf_eq_of_members (h : List.Forall₂ (MemberOf rules mode) ms xs) :
    notesOf xs = (ms.filter (·.1 ∈ descriptiveKeys)).map fun m => (m.1, m.2.freeze) := by
  induction h with
  | nil => rfl
  | cons first _ ih =>
    unfold notesOf at ih ⊢
    cases first with
    | note _ note => simpa [note] using ih
    | kept _ entry | ruled _ entry => simpa [entry] using ih

/-- A compiled entry has the rule of its key. -/
theorem rule_of_mem_entriesOf (h : List.Forall₂ (MemberOf rules mode) ms xs) {e : Entry}
    (he : e ∈ entriesOf xs) : e.rule = Listing.get? e.keyword rules ∧
      (e.rule = none → mode ≠ .strict) ∧ e.keyword ∉ descriptiveKeys := by
  obtain ⟨⟨key, v⟩, -, member⟩ := exists_left_of_forall₂ h (mem_entriesOf.mp he)
  cases member with
  | kept _ entry unruled lenient => exact ⟨unruled.symm, fun _ => lenient, entry⟩
  | ruled _ entry ruled => exact ⟨ruled.symm, nofun, entry⟩

/-- Where names are distinct, what stands under a key is found again. -/
theorem exists_keptAs_of_mem (h : List.Forall₂ (MemberOf rules mode) ms xs)
    (distinct : (Listing.names ms).Nodup) {key : String} {v : Value} (mem : (key, v) ∈ ms)
    (entry : key ∉ descriptiveKeys) :
    ∃ p, Node.paramIn? key (entriesOf xs) = some p ∧ KeptAs rules mode key v p := by
  have lookup := rel_get?_paramIn? h entry
  rw [Listing.get?_of_mem distinct mem] at lookup
  generalize Node.paramIn? key (entriesOf xs) = found at lookup
  cases lookup with
  | some kept => exact ⟨_, rfl, kept⟩

/-- What stands under a keyword is filled with what its schemas turn into. -/
theorem ParamOf.filled {C R : Value → Node → Prop} {k : Keyword} {v : Value} {p : Param}
    (h : ParamOf C (some k) v p) (inside : ∀ sub ∈ Schema.subschemas k v, ∀ n, C sub n → R sub n) :
    Filled R k v p := by
  cases h with
  | properties compile =>
    refine .named (.inl rfl) (forall₂_imp_of_mem compile fun m hm n _ h => ?_)
    exact Named.iff.mpr ⟨h.1, inside m.2 (List.mem_map_of_mem hm) n.2 h.2⟩
  | patternProperties compile =>
    refine .named (.inr rfl) (forall₂_imp_of_mem compile fun m hm n _ h => ?_)
    exact Named.iff.mpr ⟨h.1, inside m.2 (List.mem_map_of_mem hm) n.2 h.2.1⟩
  | closed => exact .closed
  | additional compiles => exact .node (.inl rfl) (inside _ (.head _) _ compiles)
  | items compiles => exact .node (.inr (.inl rfl)) (inside _ (.head _) _ compiles)
  | negation _ compiles => exact .node (.inr (.inr (.inl rfl))) (inside _ (.head _) _ compiles)
  | clause compiles => exact .node (.inr (.inr (.inr ⟨_, rfl⟩))) (inside _ (.head _) _ compiles)
  | elements compile =>
    exact .nodes (.inl rfl) (forall₂_imp_of_mem compile fun x hx n _ => inside x hx n)
  | branches _ compile =>
    exact .nodes (.inr ⟨_, rfl⟩) (forall₂_imp_of_mem compile fun x hx n _ => inside x hx n)
  | dependencies compile =>
    refine .dependencies (forall₂_imp_of_mem compile ?_)
    rintro ⟨name, w⟩ hm ⟨_, d⟩ - ⟨rfl, dependency⟩
    refine .intro name ?_
    cases dependency with
    | names => exact .names
    | node compiles =>
      exact .node (inside _ (List.mem_filter.mpr ⟨List.mem_map_of_mem hm, rfl⟩) _ compiles)
  | _ => exact .bare fun _ => rfl

end Compile

open Compile

/-- What a node is compiled from, it keeps. -/
theorem Compiles.keeps {a : Access} {ms : List (String × Value)} {n : Node}
    (h : Compiles rules mode (.object a ms) n) (distinct : (Listing.names ms).Nodup) :
    n.Keeps rules mode ms := by
  obtain ⟨_, _, xs, ps, same, hxs, hps, rfl⟩ := compiles_iff.mp h
  cases same
  have keywords := keywords_entriesOf hxs
  have once : ((entriesOf xs).map Entry.keyword).Nodup := keywords ▸ distinct.filter _
  refine
    { inMode := rfl
      keywords
      bindings := ?_
      params := ?_
      strict := ?_
      plain := ?_
      notes := notesOf_eq_of_members hxs
      apart := ?_
      declared := names_eq_of_members hxs (.inl rfl)
      patterns := ?_ }
  · rw [← keywords, List.filterMap_map, Node.bindings, List.map_filterMap]
    refine List.filterMap_congr fun e he => ?_
    rw [Function.comp_apply, ← (rule_of_mem_entriesOf hxs he).1, Option.map_map]
    rfl
  · intro b hb
    obtain ⟨e, he, hb⟩ := List.mem_filterMap.mp hb
    obtain ⟨r, -, rfl⟩ := Option.map_eq_some_iff.mp hb
    exact Node.paramIn?_of_mem once he
  · intro strict e he
    obtain ⟨rule, lenient, -⟩ := rule_of_mem_entriesOf hxs he
    rw [← rule, Option.isSome_iff_ne_none]
    exact fun unruled => lenient unruled strict
  · intro key v mem entry unlisted
    obtain ⟨p, found, kept⟩ := exists_keptAs_of_mem hxs distinct mem entry
    refine found.trans (congrArg some ?_)
    unfold KeptAs at kept
    split at kept
    · rw [unlisted] at kept
      cases kept
      rfl
    · exact kept
  · intro key hkey
    refine Node.paramIn?_eq_none fun e he same => (rule_of_mem_entriesOf hxs he).2.2 ?_
    obtain ⟨note, hnote, rfl⟩ := List.mem_map.mp hkey
    change note ∈ notesOf xs at hnote
    rw [notesOf_eq_of_members hxs] at hnote
    obtain ⟨m, hm, rfl⟩ := List.mem_map.mp hnote
    rw [same]
    simpa using (List.mem_filter.mp hm).2
  · rw [← names_eq_of_members hxs (.inr rfl)]
    exact hps

theorem Compiles.represents {raw : Value} {n : Node} (h : Compiles rules mode raw n)
    (complete : Rule.Complete rules)
    (distinct : ∀ a ms, Schema.Position raw (.object a ms) → (Listing.names ms).Nodup) :
    Represents rules mode raw n := by
  induction raw using Schema.induction generalizing n with
  | object a ms below =>
    have once := distinct a ms .root
    refine .intro (h.keeps once) fun k v p mem found => ?_
    obtain ⟨xs, hxs, entries⟩ := h.exists_members
    obtain ⟨q, found', kept⟩ := exists_keptAs_of_mem hxs once mem k.name_not_descriptive
    rw [← entries] at found'
    obtain rfl := Option.some.inj (found.symm.trans found')
    rw [KeptAs, if_pos (complete k), Keyword.ofName?_name] at kept
    refine kept.filled fun sub inner m compiles => ?_
    refine below k v mem sub inner compiles fun b ns pos => distinct b ns ?_
    exact (Schema.Position.under .root mem inner).trans pos
  | other v other =>
    obtain ⟨a, ms, rfl⟩ := h.eq_object
    cases other

/-- A compiled tree keeps its schema: at the root and, beside some schema inside it, at every node
below. -/
theorem represents_of_compileSchema {raw : Value} {n : Node} (complete : Rule.Complete rules)
    (distinct : ∀ a ms, Schema.Position raw (.object a ms) → (Listing.names ms).Nodup)
    (compiled : (compileSchema rules mode raw).result = .ok n) :
    Represents rules mode raw n ∧ n.Every fun m =>
      ∃ a ms, Schema.Position raw (.object a ms) ∧ m.Keeps rules mode ms := by
  have h := result_compileSchema_eq_ok_iff.mp compiled
  refine ⟨h.represents complete distinct, h.every_inside fun sub m pos compiles => ?_⟩
  obtain ⟨a, ms, rfl⟩ := compiles.eq_object
  exact ⟨a, ms, pos, compiles.keeps (distinct a ms pos)⟩

/-- What JSON can say has distinct names wherever a schema may stand. -/
theorem Value.JsonLike.names_nodup {raw : Value} (h : raw.JsonLike) (a : Access)
    (ms : List (String × Value)) (pos : Schema.Position raw (.object a ms)) :
    (Listing.names ms).Nodup :=
  (Schema.of_position (fun _ _ like _ => like.of_mem_items) (fun _ _ like _ => like.of_mem_members)
    h pos).distinct

/-- Schemas under five keywords, a user's rule, a note and a key that nobody knows. -/
def shelfSchema : Value :=
  .object .mutable [("title", .string "shelf"), ("even", .list [.null]), ("shade", .list [.null]),
    ("properties", .object .mutable [("id", .object .mutable [("even", .bool true)]),
      ("lid", .object .mutable [("title", .list [.null])])]),
    ("patternProperties", .object .mutable [("^x", .object .mutable [])]),
    ("dependencies", .object .mutable [("lid", .list [.string "id"]),
      ("id", .object .mutable [("required", .list [.string "lid"])])]),
    ("items", .list [.object .mutable [], .object .mutable [("shade", .null)]]),
    ("additionalProperties", .bool false), ("if", .object .mutable [])]

theorem jsonLike_shelfSchema : shelfSchema.JsonLike := by
  have bare : (Value.object .mutable []).JsonLike := .object .nil nofun
  have nulls : (Value.list [.null]).JsonLike := .array (by simpa using .null)
  have name (s : String) : (Value.list [.string s]).JsonLike := .array (by simpa using .string s)
  have one {key : String} {v : Value} (h : v.JsonLike) :
      (Value.object .mutable [(key, v)]).JsonLike :=
    .object (List.nodup_singleton _) (by simpa using h)
  refine .object (by decide) ?_
  simp only [List.forall_mem_cons]
  refine ⟨.string _, nulls, nulls, .object (by decide) ?_, one bare, .object (by decide) ?_,
    .array ?_, .bool _, bare, nofun⟩
  · simpa using ⟨one (.bool _), one nulls⟩
  · simpa using ⟨name _, one (name _)⟩
  · simpa using ⟨bare, one .null⟩

theorem represents_of_compileSchema_shelfSchema :
    Rule.Complete Rules.evenRules ∧
    (∀ a ms, Schema.Position shelfSchema (.object a ms) → (Listing.names ms).Nodup) ∧
    ∃ n, (compileSchema Rules.evenRules .loose shelfSchema).result = .ok n ∧
      Represents Rules.evenRules .loose shelfSchema n ∧ n.Every fun m =>
        ∃ a ms, Schema.Position shelfSchema (.object a ms) ∧ m.Keeps Rules.evenRules .loose ms := by
  have complete : Rule.Complete Rules.evenRules := Rule.complete_builtins.put _ _
  have distinct := jsonLike_shelfSchema.names_nodup
  obtain ⟨n, compiled⟩ :
      ∃ n, (compileSchema Rules.evenRules .loose shelfSchema).result = .ok n := ⟨_, rfl⟩
  exact ⟨complete, distinct, n, compiled, represents_of_compileSchema complete distinct compiled⟩

end Conform
