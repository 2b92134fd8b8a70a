import Conform.Proofs.Path.Decoding
import Conform.Proofs.Rules.Location
import Conform.Proofs.Schema.Interchange
import Conform.Proofs.Tag.Schema
import Conform.Report

/-! Findings grouped by the text of their paths. Where no conjunction puts branches into paths, and
names are ordinary, the text tells the place, so that a group is all that is found at one place. The
names are those of the value but for one kind: a missing member goes by the name that the schema
gives it. -/
namespace Conform

/-- A value with ordinary names in it, at any depth. -/
inductive Value.Ordinary : Value → Prop
  | array {a : Access} {xs : List Value} (items : ∀ x ∈ xs, Ordinary x) : Ordinary (.array a xs)
  | object {a : Access} {ms : List (String × Value)} (names : ∀ m ∈ ms, Path.Ordinary m.1)
    (members : ∀ m ∈ ms, Ordinary m.2) : Ordinary (.object a ms)
  | other {v : Value} (items : v.items? = none) (members : v.members? = none) : Ordinary v

theorem Value.Ordinary.of_part {v w : Value} {step : Step} (h : v.Ordinary)
    (part : v.Part step w) : step.Ordinary ∧ w.Ordinary := by
  cases part with
  | member mem =>
    cases h with
    | object names members => exact ⟨names _ mem, members _ mem⟩
    | other _ members => cases members
  | element found =>
    cases h with
    | array items => exact ⟨trivial, items _ (List.mem_of_getElem? found)⟩
    | other items _ => cases items

/-- A finding that is not about a missing member, unless one with an ordinary name. -/
def Finding.Ordinary (f : Finding) : Prop :=
  ∀ name, f.reason.missing? = some name → Path.Ordinary name

/-- A finding below a path, at the end of steps that are ordinary if the finding is. -/
def Finding.Follows (p : Path) (f : Finding) : Prop :=
  ∃ steps, f.path = { p with steps := p.steps ++ steps } ∧
    (f.Ordinary → ∀ t ∈ steps, t.Ordinary)

theorem Finding.Follows.above {p : Path} {step : Step} {f : Finding}
    (h : f.Follows (p.child step)) (ordinary : step.Ordinary) : f.Follows p := by
  obtain ⟨steps, path, below⟩ := h
  refine ⟨step :: steps, by simp [path, Path.child], fun plain => ?_⟩
  exact List.forall_mem_cons.mpr ⟨ordinary, below plain⟩

namespace Rules

theorem placeLaw_follows : PlaceLaw fun v p f => v.Ordinary → f.Follows p where
  own path _ _ _ := ⟨[], by simp [path], fun _ => List.forall_mem_nil _⟩
  missing _ _ _ := ⟨[_], rfl, fun plain => List.forall_mem_singleton.mpr (plain _ rfl)⟩
  inside part _ _ below ordinary := by
    obtain ⟨step, inner⟩ := ordinary.of_part part
    exact (below inner).above step
  clause _ _ _ _ _ inner ordinary := inner ordinary

end Rules

namespace Report

variable {found : List Finding}

/-- Grouping goes on from what is grouped already. -/
theorem getD_get?_foldl_put (l : Listing (List Finding)) (path : String) :
    (Listing.get? path (found.foldl
      (fun l f => l.put f.path.text (((l.get? f.path.text).getD []) ++ [f])) l)).getD [] =
      (l.get? path).getD [] ++ found.filter fun f => f.path.text = path := by
  induction found generalizing l with
  | nil => exact (List.append_nil _).symm
  | cons f found ih =>
    rw [List.foldl_cons, ih]
    by_cases here : f.path.text = path
    · subst here
      rw [Listing.get?_put_self, List.filter_cons_of_pos (by simp), Option.getD_some,
        List.append_assoc, List.singleton_append]
    · rw [Listing.get?_put_of_ne (Ne.symm here), List.filter_cons_of_neg (by simpa using here)]

theorem getD_get?_groupByPath (found : List Finding) (path : String) :
    (Listing.get? path (groupByPath found)).getD [] = found.filter fun f => f.path.text = path :=
  getD_get?_foldl_put [] path

theorem nodup_names_groupByPath (found : List Finding) : (groupByPath found).names.Nodup :=
  List.foldlRecOn (motive := fun l : Listing (List Finding) => l.names.Nodup) found _ .nil
    fun _ distinct _ _ => Listing.nodup_names_put _ _ distinct

/-- A group has all findings with one text of a path, and no others. -/
theorem mem_group_iff {group : String × List Finding} (h : group ∈ groupByPath found)
    {f : Finding} : f ∈ group.2 ↔ f ∈ found ∧ f.path.text = group.1 := by
  have here := Listing.get?_of_mem (nodup_names_groupByPath found) h
  have all := getD_get?_groupByPath found group.1
  rw [here, Option.getD_some] at all
  rw [all, List.mem_filter, decide_eq_true_eq]

theorem exists_group {f : Finding} (h : f ∈ found) : ∃ group ∈ groupByPath found, f ∈ group.2 := by
  have all := getD_get?_groupByPath found f.path.text
  cases here : Listing.get? f.path.text (groupByPath found) with
  | none =>
    rw [here, Option.getD_none] at all
    have mem : f ∈ found.filter fun g => g.path.text = f.path.text :=
      List.mem_filter.mpr ⟨h, decide_eq_true rfl⟩
    rw [← all] at mem
    cases mem
  | some fs =>
    have group := Listing.mem_of_get? here
    exact ⟨_, group, (mem_group_iff group).mpr ⟨h, rfl⟩⟩

/-- Each finding is in a group, and has there all that is found at the same place and nothing else.
Of findings about missing members this is said only where the names are ordinary. -/
structure GroupedByPlace (found : List Finding) : Prop where
  grouped : ∀ f ∈ found, ∃ group ∈ groupByPath found, f ∈ group.2
  apart : ∀ group ∈ groupByPath found, ∀ f ∈ group.2, f.Ordinary → ∀ g ∈ found, g.Ordinary →
    (g ∈ group.2 ↔ g.path = f.path)

theorem groupedByPlace_of_follows {root : String} (filled : root ≠ "")
    (follows : ∀ f ∈ found, f.Follows (.ofString root)) : GroupedByPlace found where
  grouped _ h := exists_group h
  apart := by
    intro group here f hf ordinary g hg ordinary'
    obtain ⟨own, text⟩ := (mem_group_iff here).mp hf
    rw [mem_group_iff here, and_iff_right hg, ← text]
    constructor
    · intro same
      obtain ⟨steps, path, below⟩ := follows f own
      obtain ⟨steps', path', below'⟩ := follows g hg
      rw [path, path'] at same ⊢
      rw [Path.steps_eq_of_foldl_eq filled (below' ordinary') (below ordinary) same]
    · exact congrArg Path.text

end Report

namespace Rules

/-- The text of a path tells its steps, below a root that is not empty and where they are elements and
members with ordinary names. So for a schema that has no conjunction anywhere, and a value with
ordinary names, findings are in one group just if they are at one place; each place is one in the
value, or names what is missing there. Missing members whose name is not ordinary are left out. -/
theorem paths_tell_places {root : String} (filled : root ≠ "") :
    (∀ steps steps' : List Step, (∀ t ∈ steps, t.Ordinary) → (∀ t ∈ steps', t.Ordinary) →
      steps.foldl Path.stepText root = steps'.foldl Path.stepText root → steps = steps') ∧
    ∀ (mode : Mode) (raw : Value) (n : Node),
      (compileSchema Rule.builtins mode raw).result = .ok n → Schema.Lacks (.combine .allOf) raw →
      ∀ (frame : Frame) (value : Value) (found : List Finding), value.Ordinary →
      (evaluate ⟨frame, value, .ofString root⟩ n).result = .ok found →
      Report.GroupedByPlace found ∧
        (value.JsonLike → ∀ f ∈ found, f.Meets value f.path.steps) := by
  refine ⟨fun steps steps' => Path.steps_eq_of_foldl_eq filled, ?_⟩
  intro mode raw n compiled lacks frame value found ordinary run
  have compiles := result_compileSchema_eq_ok_iff.mp compiled
  have reports := places_of_compiles placeLaw_follows compiles
    (fun asks => absurd asks (lacks.not_asks compiles)) ⟨frame, value, .ofString root⟩
  rw [run] at reports
  refine ⟨Report.groupedByPlace_of_follows filled fun f hf => reports f hf ordinary, ?_⟩
  intro json f hf
  have located := locates_of_compiles compiles ⟨frame, value, .ofString root⟩ json
  rw [run] at located
  obtain ⟨steps, path, meets⟩ := located f hf
  rw [path]
  exact meets

/-- A required name that reads like the first element of a member. -/
def crowdedSchema : Value :=
  .object .mutable [("required", .list [.string "a[0]"]), ("properties", .object .mutable
    [("a", .object .mutable [("items", .object .mutable
      [("type", .string "string"), ("minimum", .ofInt 2)])])])]

def crowdedNode : Node :=
  .mk .strict
    [.mk "required" (.plain (.array .frozen [.string "a[0]"])) (some (.of .required)),
      .mk "properties" (.named [("a", .mk .strict [.mk "items" (.node (.mk .strict
          [.mk "type" (.plain (.string "string")) (some (.of .type)),
            .mk "minimum" (.plain (.ofInt 2)) (some (.of (.bound .minimum)))] [] []))
          (some (.of .items))] [] [])])
        (some (.of .properties))] [] []

def crowdedValue : Value := .object .mutable [("a", .list [.ofInt 1, .null])]

theorem lacks_crowdedSchema : Schema.Lacks (.combine .allOf) crowdedSchema := by
  refine .of_members (by simp [Keyword.name, Combinator.name]) fun k v mem sub inner => ?_
  rcases List.mem_pair.mp mem with same | same
  · obtain rfl : k = .required := Keyword.name_injective (Prod.mk.inj same).1
    cases inner
  · obtain rfl : k = .properties := Keyword.name_injective (Prod.mk.inj same).1
    obtain rfl := (Prod.mk.inj same).2
    obtain rfl := List.mem_singleton.mp inner
    refine .of_members (by simp [Keyword.name, Combinator.name]) fun k v mem sub inner => ?_
    obtain ⟨name, rfl⟩ := Prod.mk.inj (List.mem_singleton.mp mem)
    obtain rfl : k = .items := Keyword.name_injective name
    obtain rfl := List.mem_singleton.mp inner
    refine .of_members (by simp [Keyword.name, Combinator.name]) fun k v mem sub inner => ?_
    rcases List.mem_pair.mp mem with same | same
    · obtain rfl : k = .type := Keyword.name_injective (Prod.mk.inj same).1
      cases inner
    · obtain rfl : k = .bound .minimum := Keyword.name_injective (Prod.mk.inj same).1
      cases inner

theorem ordinary_crowdedValue : crowdedValue.Ordinary := by
  refine .object (by simp [Path.Ordinary]) (List.forall_mem_singleton.mpr (.array fun x hx => ?_))
  rcases List.mem_pair.mp hx with rfl | rfl <;> exact .other rfl rfl

theorem jsonLike_crowdedValue : crowdedValue.JsonLike := by
  refine .object (by decide) (List.forall_mem_singleton.mpr (.array fun x hx => ?_))
  rcases List.mem_pair.mp hx with rfl | rfl
  · exact .number _
  · exact .null

/-- Two findings at the one element are in one group, those at the next are not; and below a member
without a name there is another element than in its place. -/
theorem paths_tell_places_crowdedNode :
    let place (i : Nat) : Path := ⟨"$", [.member "a", .element i]⟩
    let mistyped : Finding :=
      ⟨place 0, .mistyped "integer" "string", "type", .ofInt 1, some "string"⟩
    let small : Finding :=
      ⟨place 0, .outOfBound .minimum "2", "minimum", .ofInt 1, some "2"⟩
    let other : Finding := ⟨place 1, .notANumber, "minimum", .null, none⟩
    "$" ≠ "" ∧
    [Step.member "", .element 10].foldl Path.stepText "$" ≠
      [Step.element 10].foldl Path.stepText "$" ∧
    (compileSchema Rule.builtins .strict crowdedSchema).result = .ok crowdedNode ∧
    Schema.Lacks (.combine .allOf) crowdedSchema ∧ crowdedValue.Ordinary ∧
    ∃ found, (evaluate ⟨{}, crowdedValue, .ofString "$"⟩ crowdedNode).result = .ok found ∧
      ∃ group ∈ Report.groupByPath found, mistyped ∈ group.2 ∧ small ∈ group.2 ∧
        other ∈ found ∧ other ∉ group.2 ∧ mistyped.Meets crowdedValue [.member "a", .element 0] := by
  intro place mistyped small other
  have filled : "$" ≠ "" := by decide
  have compiled : (compileSchema Rule.builtins .strict crowdedSchema).result = .ok crowdedNode :=
    rfl
  obtain ⟨found, run, atFirst, atFirst', atNext⟩ : ∃ found,
      (evaluate ⟨{}, crowdedValue, .ofString "$"⟩ crowdedNode).result = .ok found ∧
      mistyped ∈ found ∧ small ∈ found ∧ other ∈ found :=
    ⟨_, rfl, .tail _ (.head _), .tail _ (.tail _ (.head _)),
      .tail _ (.tail _ (.tail _ (.tail _ (.head _))))⟩
  obtain ⟨told, runs⟩ := paths_tell_places filled
  obtain ⟨⟨grouped, apart⟩, meets⟩ := runs .strict crowdedSchema crowdedNode compiled
    lacks_crowdedSchema {} crowdedValue found ordinary_crowdedValue run
  obtain ⟨group, mem, own⟩ := grouped mistyped atFirst
  have together := apart group mem mistyped own nofun
  refine ⟨filled, fun same => ?_, compiled, lacks_crowdedSchema, ordinary_crowdedValue, found, run,
    group, mem, own, (together small atFirst' nofun).mpr rfl, atNext, ?_,
    meets jsonLike_crowdedValue mistyped atFirst⟩
  · have steps := told [.member "", .element 10] [.element 10]
      (by simp [Step.Ordinary, Path.Ordinary]) (by simp [Step.Ordinary]) same
    cases steps
  · intro inside
    have places := (together other atNext nofun).mp inside
    cases places

/-- The name that a schema gives to what is missing need not be ordinary. Here it makes one group of
three findings at two places: the missing member and an element that is there. -/
theorem missing_name_misleads :
    let missing : Finding :=
      ⟨⟨"$", [.member "a[0]"]⟩, .missing "a[0]", "required", .null, some "a[0]"⟩
    let place : Path := ⟨"$", [.member "a", .element 0]⟩
    Schema.Lacks (.combine .allOf) crowdedSchema ∧ crowdedValue.Ordinary ∧
    (compileSchema Rule.builtins .strict crowdedSchema).result = .ok crowdedNode ∧
    ∃ found, (evaluate ⟨{}, crowdedValue, .ofString "$"⟩ crowdedNode).result = .ok found ∧
      ∃ group ∈ Report.groupByPath found, missing ∈ group.2 ∧
        ∃ f ∈ group.2, f.path = place ∧ f.path ≠ missing.path := by
  intro missing place
  refine ⟨lacks_crowdedSchema, ordinary_crowdedValue, rfl, _, rfl, _, .head _, .head _, _,
    .tail _ (.head _), rfl, ?_⟩
  have apart : place ≠ ⟨"$", [.member "a[0]"]⟩ := by decide
  exact apart

end Rules

end Conform
