import Conform.Proofs.Schema.Relation

/-! Each keyword's value compiles exactly where it is related to a parameter. -/
namespace Conform.Compile

variable {rules : Listing Rule} {mode : Mode}

section

variable {C : Value → Node → Prop} {v w : Value}

theorem ParamOf.of_typeParam (h : (typeParam v).result = .ok w) :
    ParamOf C (some .type) v (.plain w) := by
  unfold typeParam at h
  split at h
  case h_1 s =>
    unfold Compile.typeName at h
    split at h
    case h_1 _ same =>
      cases same
      split at h
      case h_1 t known =>
        cases h
        exact .typeName (Option.isSome_iff_exists.mpr ⟨t, known⟩)
      case h_2 => cases h
    case h_2 strange => exact absurd rfl (strange s)
  case h_2 a x xs =>
    obtain ⟨ys, hys, hw⟩ := Logged.result_bind_eq_ok_iff.mp h
    obtain ⟨known, rfl⟩ := result_typeNames_eq_ok_iff.mp hys
    cases hw
    exact .typeNames (List.cons_ne_nil _ _) known
  case h_3 => cases h

theorem ParamOf.of_patternParam (h : (patternParam v).result = .ok w) :
    ParamOf C (some .pattern) v (.plain w) := by
  cases v
  case string s =>
    obtain ⟨u, read, hw⟩ := Logged.result_bind_eq_ok_iff.mp h
    obtain ⟨p, hp⟩ := result_checkPattern_eq_ok_iff.mp read
    cases hw
    exact .pattern hp
  all_goals cases h

theorem ParamOf.of_requiredParam (h : (requiredParam v).result = .ok w) :
    ParamOf C (some .required) v (.plain w) := by
  cases v
  case array a xs =>
    obtain ⟨ys, hys, hw⟩ := Logged.result_bind_eq_ok_iff.mp h
    obtain ⟨strings, rfl⟩ := result_requiredNames_eq_ok_iff.mp hys
    cases hw
    exact .required strings
  all_goals cases h

end

theorem ParamOf.of_result {k : Option Keyword} {v : Value} {p : Param}
    (h : (param rules mode k v).result = .ok p) : ParamOf (Compiles rules mode) k v p := by
  cases k with
  | none =>
    rw [param] at h
    cases h
    exact .custom
  | some k =>
    cases k with
    | format =>
      rw [param] at h
      cases h
      exact .format
    | type =>
      rw [param, Logged.result_map_eq_ok_iff] at h
      obtain ⟨w, hw, rfl⟩ := h
      exact .of_typeParam hw
    | bound b =>
      rw [param, Logged.result_map_eq_ok_iff] at h
      obtain ⟨w, hw, rfl⟩ := h
      cases v <;> cases hw
      exact .bound
    | multipleOf =>
      rw [param, Logged.result_map_eq_ok_iff] at h
      obtain ⟨w, hw, rfl⟩ := h
      cases v <;> cases hw
      exact .multipleOf
    | limit l =>
      rw [param, Logged.result_map_eq_ok_iff] at h
      obtain ⟨w, hw, rfl⟩ := h
      obtain ⟨i, whole, natural, rfl⟩ := result_countParam_eq_ok_iff.mp hw
      exact .limit whole natural
    | pattern =>
      rw [param, Logged.result_map_eq_ok_iff] at h
      obtain ⟨w, hw, rfl⟩ := h
      exact .of_patternParam hw
    | uniqueItems =>
      rw [param, Logged.result_map_eq_ok_iff] at h
      obtain ⟨w, hw, rfl⟩ := h
      cases v <;> cases hw
      exact .uniqueItems
    | enum =>
      rw [param, Logged.result_map_eq_ok_iff] at h
      obtain ⟨w, hw, rfl⟩ := h
      cases v <;> cases hw
      rw [Value.freeze, Value.freezeItems_eq_map]
      exact .enum
    | required =>
      rw [param, Logged.result_map_eq_ok_iff] at h
      obtain ⟨w, hw, rfl⟩ := h
      exact .of_requiredParam hw
    | properties =>
      cases v <;> simp only [param, result_refuse, reduceCtorEq] at h
      obtain ⟨ns, hns, rfl⟩ := Logged.result_map_eq_ok_iff.mp h
      exact .properties (result_properties_eq_ok_iff.mp hns)
    | patternProperties =>
      cases v <;> simp only [param, result_refuse, reduceCtorEq] at h
      obtain ⟨ns, hns, rfl⟩ := Logged.result_map_eq_ok_iff.mp h
      exact .patternProperties (result_patternProperties_eq_ok_iff.mp hns)
    | additionalProperties =>
      cases v <;> simp only [param, result_refuse, reduceCtorEq] at h
      case bool b =>
        cases h
        exact .closed
      case object a ms =>
        obtain ⟨n, hn, rfl⟩ := Logged.result_map_eq_ok_iff.mp h
        exact .additional ((result_within_eq_ok_iff a).mp hn)
    | items =>
      cases v <;> simp only [param, result_refuse, reduceCtorEq] at h
      case array a xs =>
        obtain ⟨ns, hns, rfl⟩ := Logged.result_map_eq_ok_iff.mp h
        exact .elements (result_elements_eq_ok_iff.mp hns)
      case object a ms =>
        obtain ⟨n, hn, rfl⟩ := Logged.result_map_eq_ok_iff.mp h
        exact .items ((result_within_eq_ok_iff a).mp hn)
    | dependencies =>
      cases v <;> simp only [param, result_refuse, reduceCtorEq] at h
      obtain ⟨ds, hds, rfl⟩ := Logged.result_map_eq_ok_iff.mp h
      exact .dependencies (result_dependencies_eq_ok_iff.mp hds)
    | combine c =>
      cases v
      case array a xs =>
        cases xs with
        | nil => simp [param] at h
        | cons x xs =>
          rw [param, Logged.result_map_eq_ok_iff] at h
          obtain ⟨ns, hns, rfl⟩ := h
          exact .branches (List.cons_ne_nil _ _) (result_branches_eq_ok_iff.mp hns)
      all_goals simp [param] at h
    | negation =>
      cases v
      case object a ms =>
        cases ms with
        | nil => simp [param] at h
        | cons m ms =>
          rw [param, Logged.result_bind_eq_ok_iff] at h
          obtain ⟨n, hn, h⟩ := h
          split at h
          case isTrue ruled =>
            cases h
            exact .negation (List.cons_ne_nil _ _) ((result_within_eq_ok_iff a).mp hn) ruled
          case isFalse => cases h
      all_goals simp [param] at h
    | clause c =>
      cases v <;> simp only [param, result_refuse, reduceCtorEq] at h
      case object a ms =>
        obtain ⟨n, hn, rfl⟩ := Logged.result_map_eq_ok_iff.mp h
        exact .clause ((result_within_eq_ok_iff a).mp hn)

theorem ParamOf.result {k : Option Keyword} {v : Value} {p : Param}
    (h : ParamOf (Compiles rules mode) k v p) : (param rules mode k v).result = .ok p := by
  cases h with
  | custom | format | bound | multipleOf | uniqueItems | closed =>
    rw [param]
    rfl
  | typeName known =>
    obtain ⟨t, ht⟩ := Option.isSome_iff_exists.mp known
    simp [param, typeParam, Compile.typeName, ht, Except.map]
  | @typeNames a xs filled known =>
    obtain ⟨x, xs, rfl⟩ := List.exists_cons_of_ne_nil filled
    rw [param, Logged.result_map, typeParam, Logged.result_bind,
      result_typeNames_eq_ok_iff.mpr ⟨known, rfl⟩]
    rfl
  | limit whole natural =>
    rw [param, Logged.result_map, result_countParam_eq_ok_iff.mpr ⟨_, whole, natural, rfl⟩]
    rfl
  | pattern reads =>
    rw [param, Logged.result_map, patternParam, Logged.result_bind,
      (result_checkPattern_eq_ok_iff (u := ())).mpr ⟨_, reads⟩]
    rfl
  | enum =>
    rw [param, enumParam, Value.freeze, Value.freezeItems_eq_map]
    rfl
  | required strings =>
    rw [param, Logged.result_map, requiredParam, Logged.result_bind,
      result_requiredNames_eq_ok_iff.mpr ⟨strings, rfl⟩]
    rfl
  | properties compile =>
    rw [param, Logged.result_map, result_properties_eq_ok_iff.mpr compile]
    rfl
  | patternProperties compile =>
    rw [param, Logged.result_map, result_patternProperties_eq_ok_iff.mpr compile]
    rfl
  | additional compiles | items compiles | clause compiles =>
    rw [param, Logged.result_map, (result_within_eq_ok_iff _).mpr compiles]
    rfl
  | elements compile =>
    rw [param, Logged.result_map, result_elements_eq_ok_iff.mpr compile]
    rfl
  | dependencies compile =>
    rw [param, Logged.result_map, result_dependencies_eq_ok_iff.mpr compile]
    rfl
  | branches filled compile =>
    obtain ⟨x, xs, rfl⟩ := List.exists_cons_of_ne_nil filled
    rw [param, Logged.result_map, result_branches_eq_ok_iff.mpr compile]
    rfl
  | negation filled compiles ruled =>
    obtain ⟨m, ms, rfl⟩ := List.exists_cons_of_ne_nil filled
    rw [param, Logged.result_bind, (result_within_eq_ok_iff _).mpr compiles]
    simp [bind, Except.bind, ruled]

theorem result_param_eq_ok_iff {k : Option Keyword} {v : Value} {p : Param} :
    (param rules mode k v).result = .ok p ↔ ParamOf (Compiles rules mode) k v p :=
  ⟨ParamOf.of_result, ParamOf.result⟩

end Conform.Compile
