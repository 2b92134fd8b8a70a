/-!
Lines of a text, between line ends of any kind. A line end at the end starts no further line.
-/
namespace Conform.Text

def isLineEnd (c : Char) : Bool :=
  let n := c.toNat
  (10 ≤ n && n ≤ 13) || (28 ≤ n && n ≤ 30) || n == 0x85 || n == 0x2028 || n == 0x2029

/-- The lines of a text, after the start of the first one in reverse. -/
def linesFrom : List Char → List Char → List (List Char)
  | [], [] => []
  | start, [] => [start.reverse]
  | start, '\r' :: '\n' :: cs => start.reverse :: linesFrom [] cs
  | start, c :: cs =>
    if isLineEnd c then start.reverse :: linesFrom [] cs else linesFrom (c :: start) cs

def lines (cs : List Char) : List (List Char) := linesFrom [] cs

/-- The text as it is read from a file: every line end written as one line feed. -/
def plainLineEnds : List Char → List Char
  | [] => []
  | '\r' :: '\n' :: cs => '\n' :: plainLineEnds cs
  | c :: cs => (if c = '\r' then '\n' else c) :: plainLineEnds cs

end Conform.Text
