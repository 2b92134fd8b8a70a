/-!
Patterns as trees. A sequence is a list of pieces; repetition, groups, assertions and conditions
hold sequences of their own.
-/
namespace Conform.Pattern

/-- How a pattern or a part of it is to be read. -/
structure Flags where
  ignoreCase : Bool := false
  multiLine : Bool := false
  dotAll : Bool := false
  verbose : Bool := false
  ascii : Bool := false
  unicode : Bool := false
  template : Bool := false
  deriving DecidableEq

namespace Flags

def union (a b : Flags) : Flags where
  ignoreCase := a.ignoreCase || b.ignoreCase
  multiLine := a.multiLine || b.multiLine
  dotAll := a.dotAll || b.dotAll
  verbose := a.verbose || b.verbose
  ascii := a.ascii || b.ascii
  unicode := a.unicode || b.unicode
  template := a.template || b.template

def without (a b : Flags) : Flags where
  ignoreCase := a.ignoreCase && !b.ignoreCase
  multiLine := a.multiLine && !b.multiLine
  dotAll := a.dotAll && !b.dotAll
  verbose := a.verbose && !b.verbose
  ascii := a.ascii && !b.ascii
  unicode := a.unicode && !b.unicode
  template := a.template && !b.template

def meets (a b : Flags) : Bool := a.union b != {} && a.without b != a

/-- The flags inside a group that turns some on and some off. Only one of the two alphabets
holds. -/
def within (outer on off : Flags) : Flags :=
  let outer :=
    if on.ascii || on.unicode then { outer with ascii := false, unicode := false } else outer
  (outer.union on).without off

end Flags

inductive Category
  | digit
  | space
  | word
  deriving DecidableEq

/-- An item of a character set. -/
inductive Item
  | literal (code : Nat)
  | range (low high : Nat)
  | category (kind : Category) (negated : Bool)
  deriving DecidableEq

/-- A place between characters. -/
inductive Anchor
  | lineStart
  | lineEnd
  | textStart
  | textEnd
  | boundary
  | inside
  deriving DecidableEq

inductive Greed
  | greedy
  | lazy
  | possessive
  deriving DecidableEq

inductive Piece
  | literal (code : Nat)
  | notLiteral (code : Nat)
  | any
  | set (negated : Bool) (items : List Item)
  | anchor (kind : Anchor)
  | branch (alternatives : List (List Piece))
  | group (capture : Option Nat) (on off : Flags) (body : List Piece)
  | atomic (body : List Piece)
  | repetition (greed : Greed) (least : Nat) (most : Option Nat) (body : List Piece)
  /-- A reference to a group, with the least and most characters the group may hold. -/
  | reference (group least most : Nat)
  | condition (group : Nat) (yes : List Piece) (no : Option (List Piece))
  | look (ahead negated : Bool) (body : List Piece)

/-- A width beyond which lengths are no longer told apart. -/
def widest : Nat := 0x10000000000000000

mutual

/-- The least and most characters that a piece may take. -/
def Piece.width : Piece → Nat × Nat
  | .literal _ | .notLiteral _ | .any | .set .. => (1, 1)
  | .anchor _ | .look .. => (0, 0)
  | .branch alternatives => widthOfAlternatives alternatives
  | .group _ _ _ body | .atomic body => widthOf body
  | .repetition _ least most body =>
    let (low, high) := widthOf body
    (low * least, match most with
      | none => if high = 0 then 0 else widest
      | some m => high * m)
  | .reference _ least most => (least, most)
  | .condition _ yes none => (0, (widthOf yes).2)
  | .condition _ yes (some no) =>
    let (a, b) := widthOf yes
    let (c, d) := widthOf no
    (min a c, max b d)

def widthOf : List Piece → Nat × Nat
  | [] => (0, 0)
  | p :: ps =>
    let (a, b) := p.width
    let (c, d) := widthOf ps
    (min (a + c) widest, min (b + d) widest)

def widthOfAlternatives : List (List Piece) → Nat × Nat
  | [] => (widest, 0)
  | a :: as =>
    let (low, high) := widthOf a
    let (low', high') := widthOfAlternatives as
    (min low low', max high high')

end

mutual

/-- Whether two pieces are the same. -/
def Piece.same : Piece → Piece → Bool
  | .literal a, .literal b | .notLiteral a, .notLiteral b => a == b
  | .any, .any => true
  | .set a xs, .set b ys => a == b && xs == ys
  | .anchor a, .anchor b => a == b
  | .branch as, .branch bs => sameAlternatives as bs
  | .group a on off ps, .group b on' off' qs =>
    a == b && on == on' && off == off' && samePieces ps qs
  | .atomic ps, .atomic qs => samePieces ps qs
  | .repetition a l m ps, .repetition b l' m' qs => a == b && l == l' && m == m' && samePieces ps qs
  | .reference a l m, .reference b l' m' => a == b && l == l' && m == m'
  | .condition a yes none, .condition b yes' none => a == b && samePieces yes yes'
  | .condition a yes (some no), .condition b yes' (some no') =>
    a == b && samePieces yes yes' && samePieces no no'
  | .look a n ps, .look b n' qs => a == b && n == n' && samePieces ps qs
  | _, _ => false

def samePieces : List Piece → List Piece → Bool
  | [], [] => true
  | p :: ps, q :: qs => p.same q && samePieces ps qs
  | _, _ => false

def sameAlternatives : List (List Piece) → List (List Piece) → Bool
  | [], [] => true
  | a :: as, b :: bs => samePieces a b && sameAlternatives as bs
  | _, _ => false

end

mutual

theorem Piece.same_iff (p q : Piece) : p.same q = true ↔ p = q := by
  match p with
  | .literal _ | .notLiteral _ | .any | .set .. | .anchor _ | .reference .. =>
    cases q <;> simp [Piece.same, and_assoc]
  | .branch as => cases q <;> simp [Piece.same, sameAlternatives_iff as]
  | .group _ _ _ ps | .atomic ps | .repetition _ _ _ ps | .look _ _ ps =>
    cases q <;> simp [Piece.same, samePieces_iff ps, and_assoc]
  | .condition _ yes none =>
    cases q with
    | condition _ _ no => cases no <;> simp [Piece.same, samePieces_iff yes]
    | _ => simp [Piece.same]
  | .condition _ yes (some no) =>
    cases q with
    | condition _ _ other =>
      cases other <;> simp [Piece.same, samePieces_iff yes, samePieces_iff no, and_assoc]
    | _ => simp [Piece.same]

theorem samePieces_iff (ps qs : List Piece) : samePieces ps qs = true ↔ ps = qs := by
  match ps, qs with
  | [], [] | [], _ :: _ | _ :: _, [] => simp [samePieces]
  | p :: ps, q :: qs => simp [samePieces, p.same_iff q, samePieces_iff ps qs]

theorem sameAlternatives_iff (as bs : List (List Piece)) :
    sameAlternatives as bs = true ↔ as = bs := by
  match as, bs with
  | [], [] | [], _ :: _ | _ :: _, [] => simp [sameAlternatives]
  | a :: as, b :: bs => simp [sameAlternatives, samePieces_iff a b, sameAlternatives_iff as bs]

end

instance : DecidableEq Piece := fun p q => decidable_of_iff _ (p.same_iff q)

end Conform.Pattern
