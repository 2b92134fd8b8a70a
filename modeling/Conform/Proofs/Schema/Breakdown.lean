import Conform.Proofs.Schema.Acceptance

/-! What gets out of compilation beside faults of schemas: rejected patterns, where nobody is prepared
for them. Their readers expect problems of syntax and nothing else, and names under pattern properties
that have no rule are read without any care. -/
namespace Conform

/-- A problem of syntax, and none that shows only when a pattern is put together. -/
def Pattern.Rejection.Syntactic : Rejection → Prop
  | .malformed .. => True
  | _ => False

namespace Schema

/-- A schema that reads a text as a pattern where a rejection of that kind is not expected. -/
inductive Uncaught (rules : Listing Rule) (mode : Mode) (text : String) (r : Pattern.Rejection) :
    Value → Prop
  | pattern {a : Access} {ms : List (String × Value)}
    (ruled : (Listing.get? Keyword.pattern.name rules).isSome)
    (mem : (Keyword.pattern.name, .string text) ∈ ms) (other : ¬r.Syntactic) :
    Uncaught rules mode text r (.object a ms)
  | name {a b : Access} {ms ns : List (String × Value)} {v : Value}
    (ruled : (Listing.get? Keyword.patternProperties.name rules).isSome)
    (mem : (Keyword.patternProperties.name, .object b ns) ∈ ms) (named : (text, v) ∈ ns)
    (other : ¬r.Syntactic) : Uncaught rules mode text r (.object a ms)
  | unruled {a b : Access} {ms ns : List (String × Value)}
    (unruled : Listing.get? Keyword.patternProperties.name rules = none) (lenient : mode ≠ .strict)
    (found : Listing.get? Keyword.patternProperties.name ms = some (.object b ns))
    (named : text ∈ ns.map (·.1)) : Uncaught rules mode text r (.object a ms)
  | under {a : Access} {ms : List (String × Value)} {k : Keyword} {v sub : Value}
    (ruled : (Listing.get? k.name rules).isSome) (mem : (k.name, v) ∈ ms)
    (inner : sub ∈ subschemas k v) (uncaught : Uncaught rules mode text r sub) :
    Uncaught rules mode text r (.object a ms)

end Schema

namespace Compile

/-- A compilation that breaks down over nothing but rejections of a certain kind. -/
def Blames {α : Type} (P : String → Pattern.Rejection → Prop) (x : Except CompileFailure α) : Prop :=
  ∀ b, x = .error (.breakdown b) →
    ∃ text r, P text r ∧ Pattern.compile text = .error r ∧ b = .ofRejection text r

namespace Blames

variable {α β : Type} {P Q : String → Pattern.Rejection → Prop}

theorem ok (a : α) : Blames P (.ok a) := nofun

theorem refused (f : SchemaFault) : Blames P (refuse f : Compiling α).result := nofun

theorem imp {x : Except CompileFailure α} (h : Blames P x) (hPQ : ∀ text r, P text r → Q text r) :
    Blames Q x := by
  intro b hb
  obtain ⟨text, r, may, rejected⟩ := h b hb
  exact ⟨text, r, hPQ text r may, rejected⟩

theorem bind {x : Compiling α} {f : α → Compiling β} (h : Blames P x.result)
    (next : ∀ a, x.result = .ok a → Blames P (f a).result) : Blames P (x >>= f).result := by
  rw [Logged.result_bind]
  cases hx : x.result with
  | ok a => exact next a hx
  | error e =>
    intro b hb
    cases hb
    exact h b hx

theorem map {x : Compiling α} {f : α → β} (h : Blames P x.result) :
    Blames P (x.map f).result := by
  rw [Logged.result_map]
  intro b hb
  cases hx : x.result with
  | ok a => simp [hx, Except.map] at hb
  | error e =>
    obtain rfl : e = .breakdown b := by simpa [hx, Except.map] using hb
    exact h b hx

theorem within {place : Place} {x : Compiling α} (h : Blames P x.result) :
    Blames P (within place x).result := by
  unfold Compile.within
  rw [Logged.result_mapError]
  intro b hb
  cases hx : x.result with
  | ok a => simp [hx, Except.mapError] at hb
  | error e =>
    cases e with
    | refused f => simp [hx, Except.mapError] at hb
    | breakdown c =>
      obtain rfl : c = b := by simpa [hx, Except.mapError] using hb
      exact h c hx

end Blames

section

variable {P : String → Pattern.Rejection → Prop}

theorem blames_checkPattern {fault : String → SchemaFault} {s : String}
    (may : ∀ r, ¬r.Syntactic → P s r) : Blames P (checkPattern fault s).result := by
  unfold checkPattern
  split
  case h_1 => exact .ok _
  case h_2 r rejected =>
    split
    case h_1 => exact .refused _
    case h_2 other =>
      intro b hb
      cases hb
      refine ⟨s, r, may r ?_, rejected, rfl⟩
      cases r with
      | malformed problem position => exact absurd rfl (other problem position)
      | _ => exact id

theorem blames_patternParam {v : Value} (may : ∀ s, v = .string s → ∀ r, ¬r.Syntactic → P s r) :
    Blames P (patternParam v).result := by
  unfold patternParam
  split
  case h_1 s => exact (blames_checkPattern (may s rfl)).bind fun _ _ => .ok _
  case h_2 => exact .refused _

theorem blames_typeName (v : Value) : Blames P (typeName v).result := by
  unfold typeName
  split
  · split
    · exact .ok _
    · exact .refused _
  · exact .refused _

theorem blames_typeNames (vs : List Value) : Blames P (typeNames vs).result := by
  induction vs with
  | nil => exact .ok _
  | cons v vs ih => exact (blames_typeName v).bind fun _ _ => ih.bind fun _ _ => .ok _

theorem blames_typeParam (v : Value) : Blames P (typeParam v).result := by
  unfold typeParam
  split
  · exact blames_typeName _
  · exact (blames_typeNames _).bind fun _ _ => .ok _
  · exact .refused _

theorem blames_numberParam (keyword : String) (v : Value) :
    Blames P (numberParam keyword v).result := by
  unfold numberParam
  split
  · exact .ok _
  · exact .refused _

theorem blames_countParam (keyword : String) (v : Value) :
    Blames P (countParam keyword v).result := by
  unfold countParam
  split
  · exact .refused _
  · split
    · exact .refused _
    · exact .ok _

theorem blames_uniquenessParam (v : Value) : Blames P (uniquenessParam v).result := by
  unfold uniquenessParam
  split
  · exact .ok _
  · exact .refused _

theorem blames_enumParam (v : Value) : Blames P (enumParam v).result := by
  unfold enumParam
  split
  · exact .ok _
  · exact .refused _

theorem blames_requiredNames (i : Nat) (vs : List Value) :
    Blames P (requiredNames i vs).result := by
  induction vs generalizing i with
  | nil => exact .ok _
  | cons v vs ih =>
    cases v
    case string s => exact (ih (i + 1)).bind fun _ _ => .ok _
    all_goals exact .refused _

theorem blames_requiredParam (v : Value) : Blames P (requiredParam v).result := by
  unfold requiredParam
  split
  · exact (blames_requiredNames _ _).bind fun _ _ => .ok _
  · exact .refused _

theorem blames_nodePatterns {names : List String} (may : ∀ name ∈ names, ∀ r, P name r) :
    Blames P (nodePatterns names).result := by
  induction names with
  | nil => exact .ok _
  | cons name names ih =>
    rw [List.forall_mem_cons] at may
    rw [nodePatterns]
    split
    case h_1 => exact (ih may.2).bind fun _ _ => .ok _
    case h_2 r rejected =>
      intro b hb
      cases hb
      exact ⟨name, r, may.1 r, rejected, rfl⟩

variable {rules : Listing Rule} {mode : Mode} {ms : List (String × Value)} {xs : List Value}

theorem blames_properties (below : ∀ m ∈ ms, Blames P (compileNode rules mode m.2).result) :
    Blames P (properties rules mode ms).result := by
  induction ms with
  | nil => exact .ok _
  | cons m ms ih =>
    obtain ⟨name, v⟩ := m
    rw [List.forall_mem_cons] at below
    cases v
    case object a inner =>
      exact (Blames.within below.1).bind fun _ _ => (ih below.2).bind fun _ _ => .ok _
    all_goals exact .refused _

theorem blames_patternProperties (may : ∀ m ∈ ms, ∀ r, ¬r.Syntactic → P m.1 r)
    (below : ∀ m ∈ ms, Blames P (compileNode rules mode m.2).result) :
    Blames P (patternProperties rules mode ms).result := by
  induction ms with
  | nil => exact .ok _
  | cons m ms ih =>
    obtain ⟨name, v⟩ := m
    rw [List.forall_mem_cons] at below may
    cases v
    case object a inner =>
      refine (blames_checkPattern may.1).bind fun _ _ => ?_
      exact (Blames.within below.1).bind fun _ _ => (ih may.2 below.2).bind fun _ _ => .ok _
    all_goals exact (blames_checkPattern may.1).bind fun _ _ => .refused _

theorem blames_elements (i : Nat) (below : ∀ x ∈ xs, Blames P (compileNode rules mode x).result) :
    Blames P (elements rules mode i xs).result := by
  induction xs generalizing i with
  | nil => exact .ok _
  | cons x xs ih =>
    rw [List.forall_mem_cons] at below
    cases x
    case object a inner =>
      exact (Blames.within below.1).bind fun _ _ => (ih (i + 1) below.2).bind fun _ _ => .ok _
    all_goals exact .refused _

theorem blames_branches (c : Combinator) (i : Nat)
    (below : ∀ x ∈ xs, Blames P (compileNode rules mode x).result) :
    Blames P (branches rules mode c i xs).result := by
  induction xs generalizing i with
  | nil => exact .ok _
  | cons x xs ih =>
    rw [List.forall_mem_cons] at below
    cases x
    case object a inner =>
      exact (Blames.within below.1).bind fun _ _ => (ih (i + 1) below.2).bind fun _ _ => .ok _
    all_goals exact .refused _

theorem blames_dependencies
    (below : ∀ m ∈ ms, m.2.isObject → Blames P (compileNode rules mode m.2).result) :
    Blames P (dependencies rules mode ms).result := by
  induction ms with
  | nil => exact .ok _
  | cons m ms ih =>
    obtain ⟨name, v⟩ := m
    rw [List.forall_mem_cons] at below
    cases v
    case object a inner =>
      exact (Blames.within (below.1 rfl)).bind fun _ _ => (ih below.2).bind fun _ _ => .ok _
    case array a names =>
      rw [dependencies]
      split
      · exact (ih below.2).bind fun _ _ => .ok _
      · exact .refused _
    all_goals exact .refused _

/-- The value of a keyword breaks down over the patterns that the keyword itself reads, and over
what the schemas in it do. -/
theorem blames_param {k : Keyword} {v : Value}
    (own : k = .pattern → ∀ s, v = .string s → ∀ r, ¬r.Syntactic → P s r)
    (names : k = .patternProperties → ∀ a ms, v = .object a ms → ∀ m ∈ ms, ∀ r, ¬r.Syntactic →
      P m.1 r)
    (below : ∀ sub ∈ Schema.subschemas k v, Blames P (compileNode rules mode sub).result) :
    Blames P (param rules mode (some k) v).result := by
  cases k
  case format =>
    rw [param]
    exact .ok _
  case type =>
    rw [param]
    exact (blames_typeParam v).map
  case bound =>
    rw [param]
    exact (blames_numberParam _ v).map
  case multipleOf =>
    rw [param]
    exact (blames_numberParam _ v).map
  case limit =>
    rw [param]
    exact (blames_countParam _ v).map
  case pattern =>
    rw [param]
    exact (blames_patternParam (own rfl)).map
  case uniqueItems =>
    rw [param]
    exact (blames_uniquenessParam v).map
  case enum =>
    rw [param]
    exact (blames_enumParam v).map
  case required =>
    rw [param]
    exact (blames_requiredParam v).map
  case properties =>
    cases v
    case object a ms => exact (blames_properties fun m hm => below _ (List.mem_map_of_mem hm)).map
    all_goals exact .refused _
  case patternProperties =>
    cases v
    case object a ms =>
      exact (blames_patternProperties (names rfl a ms rfl)
        fun m hm => below _ (List.mem_map_of_mem hm)).map
    all_goals exact .refused _
  case additionalProperties =>
    cases v
    case object a ms => exact (Blames.within (below _ (.head _))).map
    case bool => exact .ok _
    all_goals exact .refused _
  case items =>
    cases v
    case object a ms => exact (Blames.within (below _ (.head _))).map
    case array a xs => exact (blames_elements 0 below).map
    all_goals exact .refused _
  case dependencies =>
    cases v
    case object a ms =>
      refine (blames_dependencies fun m hm object => below _ ?_).map
      exact List.mem_filter.mpr ⟨List.mem_map_of_mem hm, object⟩
    all_goals exact .refused _
  case combine c =>
    cases v
    case array a xs =>
      cases xs with
      | nil => exact .refused _
      | cons x xs => exact (blames_branches c 0 below).map
    all_goals exact .refused _
  case negation =>
    cases v
    case object a ms =>
      cases ms with
      | nil => exact .refused _
      | cons m ms =>
        refine (Blames.within (below _ (.head _))).bind fun n _ => ?_
        split
        · exact .ok _
        · exact .refused _
    all_goals exact .refused _
  case clause c =>
    cases v
    case object a ms => exact (Blames.within (below _ (.head _))).map
    all_goals exact .refused _

theorem blames_members (each : ∀ k v, (Keyword.name k, v) ∈ ms →
      (Listing.get? k.name rules).isSome → Blames P (param rules mode (some k) v).result) :
    Blames P (members rules mode ms).result := by
  induction ms with
  | nil => exact .ok _
  | cons m ms ih =>
    obtain ⟨key, v⟩ := m
    have rest := ih fun k v mem => each k v (.tail _ mem)
    rw [members]
    refine Blames.bind ?_ fun _ _ => rest.bind fun _ _ => .ok _
    split
    · exact .refused _
    split
    · exact .ok _
    cases found : Listing.get? key rules with
    | none => cases mode with
      | strict => exact .refused _
      | loose | warn => exact .ok _
    | some rule =>
      refine Blames.map ?_
      cases hk : Keyword.ofName? key with
      | none =>
        rw [param]
        exact .ok _
      | some k =>
        obtain rfl := Keyword.ofName?_eq_some_iff.mp hk
        exact each k v (.head _) (by rw [found]; rfl)

end

end Compile

namespace Schema

open Compile

variable {rules : Listing Rule} {mode : Mode} {raw : Value}

section

variable {a : Access} {ms : List (String × Value)} {xs : List Member}
  (compile : List.Forall₂ (MemberOf rules mode) ms xs)
include compile

/-- With a rule for pattern properties, all names under them have been read before. -/
theorem exists_reads_of_ruled (ruled : (Listing.get? Keyword.patternProperties.name rules).isSome) :
    ∃ ps, List.Forall₂ (fun name p => Pattern.compile name = .ok p)
      (namePatterns (entriesOf xs)) ps := by
  have lookup := rel_get?_paramIn? compile Keyword.patternProperties.name_not_descriptive
  unfold namePatterns
  generalize Listing.get? _ ms = found, Node.paramIn? _ _ = p at lookup
  cases lookup with
  | none => exact ⟨[], .nil⟩
  | some kept =>
    rw [KeptAs, if_pos ruled, Keyword.ofName?_name] at kept
    cases kept with
    | patternProperties reads => exact exists_reads reads

theorem namePatterns_eq : namePatterns (entriesOf xs) =
    (((Listing.get? Keyword.patternProperties.name ms).bind Value.members?).getD []).map (·.1) :=
  names_eq_of_members compile (.inr rfl)

theorem lenient_of_unruled {v : Value}
    (unruled : Listing.get? Keyword.patternProperties.name rules = none)
    (mem : (Keyword.patternProperties.name, v) ∈ ms) : mode ≠ .strict := by
  obtain ⟨x, -, member⟩ := exists_right_of_forall₂ compile mem
  cases member with
  | note _ note => exact absurd note Keyword.patternProperties.name_not_descriptive
  | kept _ _ _ lenient => exact lenient
  | ruled _ _ ruled _ => cases unruled.symm.trans ruled

theorem blames_namePatterns : Blames (fun text r => Uncaught rules mode text r (.object a ms))
    (nodePatterns (namePatterns (entriesOf xs))).result := by
  cases ruled : Listing.get? Keyword.patternProperties.name rules with
  | some rule =>
    obtain ⟨ps, hps⟩ := exists_reads_of_ruled compile (by rw [ruled]; rfl)
    rw [result_nodePatterns_eq_ok_iff.mpr hps]
    exact .ok _
  | none =>
    rw [namePatterns_eq compile]
    refine blames_nodePatterns fun name named r => ?_
    cases found : Listing.get? Keyword.patternProperties.name ms with
    | none => simp [found] at named
    | some v =>
      have lenient := lenient_of_unruled compile ruled (Listing.mem_of_get? found)
      cases v
      case object b ns => exact .unruled ruled lenient found (by simpa [found, Value.members?] using named)
      all_goals simp [found, Value.members?] at named

end

variable (rules mode) in
/-- A breakdown of a compilation is the rejection of a text that nobody was prepared for. -/
theorem blames_compileNode (raw : Value) :
    Blames (fun text r => Uncaught rules mode text r raw) (compileNode rules mode raw).result := by
  induction raw using Schema.induction with
  | object a ms below =>
    refine Blames.bind (blames_members fun k v mem ruled => blames_param ?_ ?_ ?_) ?_
    · rintro rfl s rfl r other
      exact .pattern ruled mem other
    · rintro rfl b ns rfl ⟨text, w⟩ named r other
      exact .name ruled mem named other
    · intro sub inner
      exact (below k v mem sub inner).imp fun text r uncaught => .under ruled mem inner uncaught
    · intro xs hxs
      have compile := result_members_eq_ok_iff.mp hxs
      exact (blames_namePatterns compile).bind fun _ _ => .ok _
  | other v h =>
    cases v
    case object => cases h
    all_goals exact .refused _

variable (rules mode) in
theorem blames_compileSchema (raw : Value) :
    Blames (fun text r => Uncaught rules mode text r raw) (compileSchema rules mode raw).result := by
  have blames := blames_compileNode rules mode raw
  cases raw
  case null => exact .refused _
  all_goals exact blames

end Schema

end Conform
