/-!
Similarity of words: twice the characters in common runs over all characters. It finds the names
that a mistyped one may stand for.
-/
namespace Conform.Command

def commonStart : List Char → List Char → Nat
  | a :: as, b :: bs => if a = b then commonStart as bs + 1 else 0
  | _, _ => 0

/-- A run that two words have in common: where it starts in each, and its length. -/
structure Run where
  left : Nat := 0
  right : Nat := 0
  length : Nat := 0

/-- The longest common run, of several the first. -/
def longestRun (as bs : List Char) : Run :=
  (List.range as.length).foldl (fun best i =>
    (List.range bs.length).foldl (fun best j =>
      let n := commonStart (as.drop i) (bs.drop j)
      if best.length < n then ⟨i, j, n⟩ else best) best) {}

/-- The characters in the longest common run and, on both sides of it, in further ones. The first
argument bounds the depth. -/
def inCommon : Nat → List Char → List Char → Nat
  | 0, _, _ => 0
  | n + 1, as, bs =>
    let r := longestRun as bs
    if r.length = 0 then 0
    else r.length + inCommon n (as.take r.left) (bs.take r.right) +
      inCommon n (as.drop (r.left + r.length)) (bs.drop (r.right + r.length))

/-- Similarity of two words as a fraction: common characters and total characters. -/
def similarity (a b : String) : Nat × Nat :=
  let as := a.toList
  let bs := b.toList
  (2 * inCommon as.length as bs, as.length + bs.length)

/-- The three most similar names, among those at least six tenths alike. -/
def similarNames (name : String) (names : List String) : List String :=
  let rated := (names.map fun n => (similarity n name, n)).filter fun r => 6 * r.1.2 ≤ 10 * r.1.1
  let ranked := rated.mergeSort fun r s =>
    let left := r.1.1 * s.1.2
    let right := s.1.1 * r.1.2
    right < left || (left == right && s.2 ≤ r.2)
  (ranked.take 3).map (·.2)

end Conform.Command
