import Conform.Proofs.Pointwise
import Conform.Proofs.Schema.Grammar
import Conform.Proofs.Schema.Parameters
import Conform.Proofs.Tree.Induction

/-! What a compiled schema comes from. Later modules read compiled trees through the relation and
never open the compiler. -/
namespace Conform

/-- A parameter without a dependency that its rule has to complain of. -/
def Param.Usable : Param → Prop
  | .dependencies ds => ∀ d ∈ ds, ∀ v, d.2 ≠ .unusable v
  | _ => True

namespace Compile

variable {rules : Listing Rule} {mode : Mode}

theorem result_unruled_eq_ok_iff {key : String} {v : Value} {x : Member} :
    (unruled mode key v).result = .ok x ↔
      mode ≠ .strict ∧ .entry (.mk key (.plain v.freeze) none) = x := by
  cases mode with
  | strict | loose => simp [unruled]
  | warn =>
    change Except.ok _ = Except.ok x ↔ _
    simp

/-- Each member of a schema object is compiled on its own. -/
theorem result_members_eq_ok_iff {ms : List (String × Value)} {xs : List Member} :
    (members rules mode ms).result = .ok xs ↔ List.Forall₂ (MemberOf rules mode) ms xs := by
  refine result_eq_ok_iff_forall₂ (f := fun _ => members rules mode) (fun _ => rfl) ?_ 0 ms xs
  rintro - ⟨key, v⟩ ms zs
  rw [members, Logged.result_bind_eq_ok_iff]
  simp only [Logged.result_bind_eq_ok_iff, Logged.result_pure, Except.ok.injEq]
  refine exists_congr fun x => ?_
  rw [← exists_and_left]
  refine exists_congr fun xs => and_congr_left' ?_
  by_cases known : key = referenceKey
  · simp only [known, if_true, result_refuse, reduceCtorEq, false_iff]
    rintro (⟨known, -⟩ | ⟨known, -, -, -⟩ | ⟨known, -, -, -⟩) <;> exact known rfl
  by_cases note : key ∈ descriptiveKeys
  · simp only [known, note, if_true, if_false, Logged.result_pure, Except.ok.injEq]
    constructor
    · rintro rfl
      exact .note known note
    · rintro (_ | ⟨-, entry, -, -⟩ | ⟨-, entry, -, -⟩)
      · rfl
      · exact absurd note entry
      · exact absurd note entry
  simp only [known, note, if_false]
  cases found : Listing.get? key rules with
  | none =>
    simp only [result_unruled_eq_ok_iff]
    constructor
    · rintro ⟨lenient, rfl⟩
      exact .kept known note found lenient
    · rintro (⟨-, h⟩ | ⟨-, -, -, lenient⟩ | ⟨-, -, ruled, -⟩)
      · exact absurd h note
      · exact ⟨lenient, rfl⟩
      · simp [found] at ruled
  | some rule =>
    simp only [Logged.result_map_eq_ok_iff, result_param_eq_ok_iff]
    constructor
    · rintro ⟨p, hp, rfl⟩
      exact .ruled known note found hp
    · rintro (⟨-, h⟩ | ⟨-, -, unruled, -⟩ | ⟨-, -, ruled, hp⟩)
      · exact absurd h note
      · simp [found] at unruled
      · obtain rfl := Option.some.inj (found.symm.trans ruled)
        exact ⟨_, hp, rfl⟩

theorem mem_entriesOf {xs : List Member} {e : Entry} : e ∈ entriesOf xs ↔ .entry e ∈ xs := by
  unfold entriesOf
  rw [List.mem_filterMap]
  constructor
  · rintro ⟨x, hx, hxe⟩
    cases x with
    | note => cases hxe
    | entry =>
      obtain rfl := Option.some.inj hxe
      exact hx
  · intro he
    exact ⟨_, he, rfl⟩

/-- The names under which a node's entries look for members by pattern. -/
def namePatterns (es : List Entry) : List String :=
  ((Node.paramIn? Keyword.patternProperties.name es).bind Param.names?).getD []

theorem result_nodePatterns_eq_ok_iff {names : List String} {ps : List Pattern} :
    (nodePatterns names).result = .ok ps ↔
      List.Forall₂ (fun name p => Pattern.compile name = .ok p) names ps := by
  refine result_eq_ok_iff_forall₂ (f := fun _ => nodePatterns) (fun _ => rfl) ?_ 0 names ps
  intro i name names zs
  rw [nodePatterns]
  split
  case h_1 p read =>
    simp only [Logged.result_bind_eq_ok_iff, Logged.result_pure, Except.ok.injEq]
    constructor
    · rintro ⟨ps, hps, rfl⟩
      exact ⟨p, ps, read, hps, rfl⟩
    · rintro ⟨q, ps, hq, hps, rfl⟩
      obtain rfl := Except.ok.inj (read.symm.trans hq)
      exact ⟨ps, hps, rfl⟩
  case h_2 r failed =>
    simp only [Logged.result_fail, reduceCtorEq, false_iff]
    rintro ⟨q, -, hq, -, -⟩
    cases failed.symm.trans hq

theorem compiles_iff {raw : Value} {n : Node} : Compiles rules mode raw n ↔ ∃ a ms xs ps,
    raw = .object a ms ∧ List.Forall₂ (MemberOf rules mode) ms xs ∧
      List.Forall₂ (fun name p => Pattern.compile name = .ok p) (namePatterns (entriesOf xs)) ps ∧
        .mk mode (entriesOf xs) ps (notesOf xs) = n := by
  constructor
  · intro h
    obtain ⟨a, ms, rfl⟩ := h.eq_object
    obtain ⟨xs, hxs, h⟩ := Logged.result_bind_eq_ok_iff.mp h
    obtain ⟨ps, hps, h⟩ := Logged.result_bind_eq_ok_iff.mp h
    exact ⟨a, ms, xs, ps, rfl, result_members_eq_ok_iff.mp hxs,
      result_nodePatterns_eq_ok_iff.mp hps, Except.ok.inj h⟩
  · rintro ⟨a, ms, xs, ps, rfl, hxs, hps, rfl⟩
    refine Logged.result_bind_eq_ok_iff.mpr ⟨xs, result_members_eq_ok_iff.mpr hxs, ?_⟩
    exact Logged.result_bind_eq_ok_iff.mpr ⟨ps, result_nodePatterns_eq_ok_iff.mpr hps, rfl⟩

/-- The patterns of compiled pattern properties can be read, all of them. -/
theorem exists_reads {C : Value → Node → Prop} {ms : List (String × Value)}
    {ns : List (String × Node)} (compile : List.Forall₂
      (fun m n => m.1 = n.1 ∧ C m.2 n.2 ∧ ∃ p, Pattern.compile n.1 = .ok p) ms ns) :
    ∃ ps, List.Forall₂ (fun name p => Pattern.compile name = .ok p) (ns.map (·.1)) ps := by
  refine exists_forall₂ fun name hname => ?_
  obtain ⟨e, he, rfl⟩ := List.mem_map.mp hname
  obtain ⟨-, -, -, -, reads⟩ := exists_left_of_forall₂ compile he
  exact reads

/-- What the value under a key that is no note is kept as. -/
def KeptAs (rules : Listing Rule) (mode : Mode) (key : String) (v : Value) (p : Param) : Prop :=
  if (Listing.get? key rules).isSome then
    ParamOf (Compiles rules mode) (Keyword.ofName? key) v p
  else p = .plain v.freeze

theorem MemberOf.keptAs {key : String} {v : Value} {e : Entry}
    (h : MemberOf rules mode (key, v) (.entry e)) :
    e.keyword = key ∧ e.rule = Listing.get? key rules ∧ KeptAs rules mode key v e.param := by
  cases h with
  | kept _ _ unruled => exact ⟨rfl, unruled.symm, by simp [KeptAs, unruled, Entry.param]⟩
  | ruled _ _ ruled compiles =>
    exact ⟨rfl, ruled.symm, by simpa [KeptAs, ruled, Entry.param] using compiles⟩

/-- Looking a key up before compilation and after it finds the same member. -/
theorem rel_get?_paramIn? {ms : List (String × Value)} {xs : List Member} {key : String}
    (h : List.Forall₂ (MemberOf rules mode) ms xs) (entry : key ∉ descriptiveKeys) :
    Option.Rel (KeptAs rules mode key) (Listing.get? key ms)
      (Node.paramIn? key (entriesOf xs)) := by
  induction h with
  | nil => exact .none
  | @cons m x ms xs hm _ ih =>
    obtain ⟨k, v⟩ := m
    cases x with
    | note n w =>
      cases hm with
      | note _ note =>
        have other : k ≠ key := fun h => entry (h ▸ note)
        simpa [Listing.get?, other, entriesOf] using ih
    | entry e =>
      obtain ⟨rfl, -, kept⟩ := hm.keptAs
      by_cases same : e.keyword = key
      · subst same
        simpa [Listing.get?, entriesOf, Node.paramIn?] using kept
      · simpa [Listing.get?, entriesOf, Node.paramIn?, same] using ih

/-- Every schema inside a keyword's parameter comes from one inside the keyword's value. -/
theorem ParamOf.exists_subschema {C : Value → Node → Prop} {k : Keyword} {v : Value} {p : Param}
    {m : Node} (h : ParamOf C (some k) v p) (hm : m ∈ p.subnodes) :
    ∃ sub ∈ Schema.subschemas k v, C sub m := by
  cases h with
  | properties compile =>
    obtain ⟨e, he, rfl⟩ := List.mem_map.mp hm
    obtain ⟨x, hx, -, compiles⟩ := exists_left_of_forall₂ compile he
    exact ⟨x.2, List.mem_map_of_mem hx, compiles⟩
  | patternProperties compile =>
    obtain ⟨e, he, rfl⟩ := List.mem_map.mp hm
    obtain ⟨x, hx, -, compiles, -⟩ := exists_left_of_forall₂ compile he
    exact ⟨x.2, List.mem_map_of_mem hx, compiles⟩
  | additional compiles | items compiles | negation _ compiles | clause compiles =>
    obtain rfl := List.mem_singleton.mp hm
    exact ⟨_, .head _, compiles⟩
  | elements compile | branches _ compile => exact exists_left_of_forall₂ compile hm
  | dependencies compile =>
    obtain ⟨⟨name, d⟩, hd, hm⟩ := List.mem_flatMap.mp hm
    obtain ⟨⟨_, v⟩, hv, -, dependency⟩ := exists_left_of_forall₂ compile hd
    cases dependency with
    | names => cases hm
    | node compiles =>
      obtain rfl := List.mem_singleton.mp hm
      exact ⟨_, List.mem_filter.mpr ⟨List.mem_map_of_mem hv, rfl⟩, compiles⟩
  | _ => cases hm

/-- Every schema inside a parameter has a raw schema that it comes from. -/
theorem ParamOf.of_mem_subnodes {C : Value → Node → Prop} {k : Option Keyword} {v : Value}
    {p : Param} {m : Node} (h : ParamOf C k v p) (hm : m ∈ p.subnodes) : ∃ raw, C raw m := by
  cases k with
  | none =>
    cases h
    cases hm
  | some k =>
    obtain ⟨sub, -, compiles⟩ := h.exists_subschema hm
    exact ⟨sub, compiles⟩

theorem ParamOf.usable {C : Value → Node → Prop} {k : Option Keyword} {v : Value}
    {p : Param} (h : ParamOf C k v p) : p.Usable := by
  cases h with
  | dependencies compile =>
    rintro ⟨name, d⟩ hd v rfl
    obtain ⟨⟨_, w⟩, -, -, hw⟩ := exists_left_of_forall₂ compile hd
    cases hw
  | _ => exact trivial

end Compile

section

variable {rules : Listing Rule} {mode : Mode} {raw : Value} {n : Node}

theorem result_compileSchema_eq_ok_iff :
    (compileSchema rules mode raw).result = .ok n ↔ Compiles rules mode raw n := by
  cases raw
  case null => simp [compileSchema, Compiles, compileNode, Compile.refuse]
  all_goals exact Iff.rfl

/-- The members of a schema object, each beside what it turned into. -/
theorem Compiles.exists_members {a : Access} {ms : List (String × Value)}
    (h : Compiles rules mode (.object a ms) n) : ∃ xs,
      List.Forall₂ (Compile.MemberOf rules mode) ms xs ∧ n.entries = Compile.entriesOf xs := by
  obtain ⟨_, _, xs, ps, same, hxs, -, rfl⟩ := Compile.compiles_iff.mp h
  cases same
  exact ⟨xs, hxs, rfl⟩

/-- The entries of a compiled node, each with the member that it comes from. -/
theorem Compiles.memberOf_of_mem_entries (h : Compiles rules mode raw n) {e : Entry}
    (he : e ∈ n.entries) : ∃ a ms m, raw = .object a ms ∧ m ∈ ms ∧
      Compile.MemberOf rules mode m (.entry e) := by
  obtain ⟨a, ms, rfl⟩ := h.eq_object
  obtain ⟨xs, hxs, entries⟩ := h.exists_members
  rw [entries, Compile.mem_entriesOf] at he
  obtain ⟨m, hm, hme⟩ := exists_left_of_forall₂ hxs he
  exact ⟨a, ms, m, rfl, hm, hme⟩

theorem Compiles.usable (h : Compiles rules mode raw n) : ∀ e ∈ n.entries, e.param.Usable := by
  intro e he
  obtain ⟨a, ms, ⟨key, v⟩, -, -, member⟩ := h.memberOf_of_mem_entries he
  cases member with
  | kept => exact trivial
  | ruled _ _ _ compiles => exact compiles.usable

/-- Every node below a compiled one comes from a schema inside its schema. -/
theorem Compiles.exists_inside (h : Compiles rules mode raw n) {m : Node} (hm : m ∈ n.subnodes) :
    ∃ sub, Schema.Position raw sub ∧ Compiles rules mode sub m := by
  obtain ⟨e, he, hm⟩ := Node.mem_subnodes.mp hm
  obtain ⟨a, ms, ⟨key, v⟩, rfl, mem, member⟩ := h.memberOf_of_mem_entries he
  cases member with
  | kept => cases hm
  | ruled _ _ _ compiles =>
    cases hk : Keyword.ofName? key with
    | none =>
      rw [hk] at compiles
      cases compiles
      cases hm
    | some k =>
      rw [hk] at compiles
      obtain ⟨sub, inner, compiles⟩ := compiles.exists_subschema hm
      obtain rfl : k.name = key := by simpa using List.find?_some hk
      exact ⟨sub, .under .root mem inner, compiles⟩

theorem Compiles.of_mem_subnodes (h : Compiles rules mode raw n) {m : Node}
    (hm : m ∈ n.subnodes) : ∃ raw', Compiles rules mode raw' m := by
  obtain ⟨sub, -, compiles⟩ := h.exists_inside hm
  exact ⟨sub, compiles⟩

/-- What holds of every schema inside and the node it compiles to holds throughout the tree. -/
theorem Compiles.every_inside {P : Node → Prop}
    (step : ∀ sub m, Schema.Position raw sub → Compiles rules mode sub m → P m)
    (h : Compiles rules mode raw n) : n.Every P := by
  induction n using Node.induction generalizing raw with
  | step n ih =>
    refine .intro (step raw n .root h) fun m hm => ?_
    obtain ⟨sub, pos, compiles⟩ := h.exists_inside hm
    exact ih m hm (fun inner k pos' => step inner k (pos.trans pos')) compiles

/-- What holds of every compiled node holds throughout a compiled tree. -/
theorem Compiles.every {P : Node → Prop} (step : ∀ raw n, Compiles rules mode raw n → P n)
    (h : Compiles rules mode raw n) : n.Every P :=
  h.every_inside fun sub m _ => step sub m

/-- Every rule in a compiled tree is one of the rules that it was compiled under. -/
theorem Compiles.every_rule {P : Rule → Prop}
    (registered : ∀ key r, Listing.get? key rules = some r → P r) (h : Compiles rules mode raw n) :
    n.Every fun m => ∀ e ∈ m.entries, ∀ r, e.rule = some r → P r := by
  apply h.every
  intro raw m h e he r hr
  obtain ⟨a, ms, ⟨key, v⟩, -, -, member⟩ := h.memberOf_of_mem_entries he
  apply registered key
  rw [← hr]
  exact member.keptAs.2.1.symm

end

end Conform
