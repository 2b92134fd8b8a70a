import Conform.Proofs.Validator.Records
import Conform.Session

/-! Sessions whose validators are twins: whatever is asked of both, the replies are alike. -/
namespace Conform

/-- Replies that say the same. Of a compiled schema its tree counts, not which object it is. -/
inductive Reply.Alike (E : Node → Node → Prop) : Reply → Reply → Prop
  | same (r : Reply) : Alike E r r
  | compiled {i j : Nat} {n m : Node} (h : E n m) : Alike E (.compiled i n) (.compiled j m)

namespace Request

/-- The schemas that a request asks for. -/
def sources (o : Validator) : Request → List Source
  | .validateText _ a => [a]
  | .validateWith _ a _ => [a]
  | .compile a _ => [a]
  | .validateVariable value tag => [Validator.variableSource value tag]
  | .validateRecord value => o.recordSources value
  | _ => []

/-- Requests that leave the hooks, the tag name and the nesting of records alone, and change the
rules only together with the memory. The options are not asked for, as caching is one of them. -/
def Steady : Request → Prop
  | .setOption name _ => name ∈ Validator.runOptions
  | .clearRules | .options | .setConvert _ | .setTagOf _ | .setAccept _ => False
  | _ => True

/-- A steady request for schemas out of the given ones. -/
def Within (o : Validator) (P : Source → Prop) (r : Request) : Prop :=
  r.Steady ∧ ∀ a ∈ r.sources o, P a

end Request

namespace Session

/-- Sessions that differ in what their own validators remember, in the numbers of compiled schemas
and, within `E`, in the schemas themselves. The default validator is asked for nothing here. -/
structure Twins (E : Node → Node → Prop) (o : Validator) (P : Source → Prop) (s t : Session) :
    Prop where
  own : Validator.Twins o P s.own t.own
  formats : t.formats = s.formats
  last : t.last = s.last
  handles : ∀ name, Option.Rel E (s.handles.get? name) (t.handles.get? name)

variable {E : Node → Node → Prop} {P : Source → Prop} {o : Validator}

theorem parallel_through {α β : Type} {Q : α → β → Prop} {f : Listing Checker → Validating α}
    {g : Listing Checker → Validating β}
    (h : ∀ shared, Work.Parallel (Validator.Twins o P) Q (f shared) (g shared)) :
    Work.Parallel (Twins E o P) Q (through .own f) (through .own g) := by
  intro s t twins
  obtain ⟨agree, kept⟩ := h s.formats s.own t.own twins.own
  unfold through
  rw [twins.formats]
  exact ⟨agree, { twins with own := kept }⟩

theorem parallel_quietly {x y : Answering Unit} (h : Work.Parallel (Twins E o P) Eq x y) :
    Work.Parallel (Twins E o P) (Reply.Alike E) (quietly x) (quietly y) :=
  h.bind fun _ _ _ => .pure (.same _)

theorem parallel_keep {x y : Answering (List Finding)}
    (h : Work.Parallel (Twins E o P) Eq x y) :
    Work.Parallel (Twins E o P) (Reply.Alike E) (keep x) (keep y) := by
  refine h.bind fun found _ same => ?_
  subst same
  refine Work.Parallel.bind (.modify fun s t twins => ?_) fun _ _ _ => .pure (.same _)
  exact { twins with last := rfl }

theorem parallel_enterFormat (name : String) (c : Option Checker) :
    Work.Parallel (Twins E o P) Eq (enterFormat .own name c) (enterFormat .own name c) := by
  unfold enterFormat
  refine .bind .get fun s t twins => ?_
  rw [twins.own.formats]
  cases own : s.own.formats with
  | some formats =>
    refine .bind (.ofExcept _) fun formats _ same => ?_
    subst same
    exact .set { twins with own := { twins.own with formats := rfl } }
  | none =>
    rw [twins.formats]
    refine .bind (.ofExcept _) fun formats _ same => ?_
    subst same
    exact .set { twins with formats := rfl }

/-- A compiled schema is put where both sessions look it up. -/
theorem Twins.handled {s t : Session} (twins : Twins E o P s t) {n m : Node} (alike : E n m)
    (handle : String) (seen seen' : List Stamp) :
    Twins E o P { s with handles := s.handles.put handle n, seen }
      { t with handles := t.handles.put handle m, seen := seen' } :=
  { twins with
    handles := by
      intro name
      by_cases same : name = handle
      · subst same
        rw [Listing.get?_put_self, Listing.get?_put_self]
        exact .some alike
      · rw [Listing.get?_put_of_ne same, Listing.get?_put_of_ne same]
        exact twins.handles name }

theorem number_snd (s : Session) (st : Stamp) :
    ∃ seen, (s.number st).2 = { s with seen } := by
  unfold number
  split
  · exact ⟨s.seen, rfl⟩
  · exact ⟨_, rfl⟩

theorem parallel_compileAs (likeness : Likeness E) (coherent : Coherent E P) {a : Source}
    (asked : P a) (handle : String) :
    Work.Parallel (Twins E o P) (Reply.Alike E)
      (compileAs .own a handle) (compileAs .own a handle) := by
  unfold compileAs
  refine Work.Parallel.bind
    (parallel_through fun _ => Validator.parallel_compileFor likeness coherent .compiling asked)
    fun c d alike => .bind .get fun s t twins => ?_
  obtain ⟨seen, numbered⟩ := number_snd s (s.stamp .own c.serial)
  obtain ⟨seen', numbered'⟩ := number_snd t (t.stamp .own d.serial)
  rcases hs : s.number (s.stamp .own c.serial) with ⟨i, s'⟩
  rcases ht : t.number (t.stamp .own d.serial) with ⟨j, t'⟩
  rw [hs] at numbered
  rw [ht] at numbered'
  obtain rfl : s' = _ := numbered
  obtain rfl : t' = _ := numbered'
  exact Work.Parallel.bind (.set (twins.handled alike handle seen seen'))
    fun _ _ _ => .pure (.compiled alike)

theorem parallel_validateHandle (likeness : Likeness E) (value : Value) (handle root : String) :
    Work.Parallel (Twins E o P) (Reply.Alike E)
      (validateHandle .own value handle root) (validateHandle .own value handle root) := by
  unfold validateHandle
  refine .bind .get fun s t twins => ?_
  have related := twins.handles handle
  generalize s.handles.get? handle = found, t.handles.get? handle = found' at related ⊢
  cases related with
  | none => exact .fail _
  | some alike =>
    exact parallel_keep (parallel_through fun _ =>
      Validator.parallel_validate likeness value alike root)

theorem parallel_reading {f : Session → Reply} (h : ∀ s t, Twins E o P s t → f t = f s) :
    Work.Parallel (Twins E o P) (Reply.Alike E)
      (do let s ← .get; return f s : Answering Reply) (do let s ← .get; return f s) := by
  refine .bind .get fun s t twins => ?_
  rw [h s t twins]
  exact .pure (.same _)

theorem parallel_report (layout : Option Value) :
    Work.Parallel (Twins E o P) (Reply.Alike E)
      (perform .own (.report layout)) (perform .own (.report layout)) := by
  have written (chosen : Option Layout) (s t : Session) (twins : Twins E o P s t) :
      Reply.text (t.own.report t.last chosen) = .text (s.own.report s.last chosen) := by
    unfold Validator.report
    rw [twins.last, twins.own.options]
  cases layout with
  | none => exact parallel_reading (written none)
  | some l =>
    refine Work.Parallel.bind (.ofExcept _) fun l _ same => ?_
    subst same
    exact parallel_reading (written (some l))

/-- One request keeps two sessions alike. -/
theorem parallel_perform (likeness : Likeness E) (coherent : Coherent E P) {r : Request}
    (within : r.Within o P) :
    Work.Parallel (Twins E o P) (Reply.Alike E) (perform .own r) (perform .own r) := by
  obtain ⟨steady, asked⟩ := within
  cases r with
  | validateText data a =>
    exact parallel_keep (parallel_through fun _ =>
      Validator.parallel_validateText likeness coherent data (asked a (.head _)))
  | validateWith value a root =>
    exact parallel_keep (parallel_through fun _ =>
      Validator.parallel_validateWith likeness coherent value (asked a (.head _)) root)
  | compile a handle => exact parallel_compileAs likeness coherent (asked a (.head _)) handle
  | validate value handle root => exact parallel_validateHandle likeness value handle root
  | validateVariable value tag =>
    exact parallel_quietly (parallel_through fun _ =>
      Validator.parallel_validateVariable likeness coherent value tag (asked _ (.head _)))
  | validateRecord value =>
    exact parallel_quietly (parallel_through fun _ =>
      Validator.parallel_validateRecord likeness coherent value asked)
  | enterRule name rule kind replace =>
    refine .bind (.ofExcept _) fun kind _ same => ?_
    subst same
    exact parallel_quietly (parallel_through fun _ =>
      Validator.parallel_enterRule name rule kind replace)
  | hasRule name =>
    exact parallel_reading fun s t twins => by simp only [validatorOf, twins.own.rules]
  | enterComparator name c replace =>
    exact parallel_quietly (parallel_through fun _ =>
      Validator.parallel_enterComparator name c _)
  | compare name a b =>
    exact parallel_reading fun s t twins => by
      simp only [validatorOf, Validator.compare?, twins.own.comparators]
  | enterFormat name c => exact parallel_quietly (parallel_enterFormat name c)
  | setOption name value =>
    exact parallel_quietly (parallel_through fun _ => Validator.parallel_setOption steady value)
  | setMode mode =>
    refine .bind (.ofExcept _) fun mode _ same => ?_
    subst same
    exact parallel_quietly (parallel_through fun _ => Validator.parallel_setMode mode)
  | setLayout layout =>
    refine .bind (.ofExcept _) fun layout _ same => ?_
    subst same
    exact parallel_quietly (parallel_through fun _ => Validator.parallel_setLayout layout)
  | forget => exact parallel_quietly (parallel_through fun _ => Validator.parallel_forget)
  | report layout => exact parallel_report layout
  | group => exact parallel_reading fun s t twins => by simp only [twins.last]
  | resetDefault =>
    exact Work.Parallel.bind (.modify fun _ _ twins => { twins with }) fun _ _ _ =>
      .pure (.same _)
  | defaultIsOne => exact .pure (.same _)
  | clearRules => exact steady.elim
  | options => exact steady.elim
  | setConvert _ => exact steady.elim
  | setTagOf _ => exact steady.elim
  | setAccept _ => exact steady.elim

end Session

end Conform
