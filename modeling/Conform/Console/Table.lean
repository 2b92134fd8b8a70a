import Conform.Console.Wrap
import Conform.Text.Lines

/-!
Tables in rounded boxes. Columns are as wide as their longest line; if that is too much for the
console, the widest are narrowed first and their texts wrapped.
-/
namespace Conform.Console

open Text

/-- The longest line of a text. -/
def longestLine (cs : List Char) : Nat := ((lines cs).map cells).foldl max 0

/-- Half of a number, a half going to the even neighbour. -/
def shareOf (total parts : Nat) : Nat :=
  let q := total / parts
  let r := total % parts
  if 2 * r < parts then q
  else if parts < 2 * r then q + 1
  else if q % 2 = 0 then q else q + 1

def totalWidth (widths : List Nat) : Nat := widths.foldl (· + ·) 0

/-- Takes a total off the columns of the given width, each at most `most`. -/
def reduce (widest most : Nat) : Nat → Nat → List Nat → List Nat
  | total, sharers, w :: ws =>
    if w = widest then
      let part := min most (shareOf total sharers)
      (w - part) :: reduce widest most (total - part) (sharers - 1) ws
    else w :: reduce widest most total sharers ws
  | _, _, [] => []

/-- Narrows the widest columns, down to the next widest at a time, until all fit. The first argument
bounds the steps. -/
def narrow (room : Nat) : Nat → List Nat → List Nat
  | 0, ws => ws
  | n + 1, ws =>
    let excess := totalWidth ws - room
    if excess = 0 then ws
    else
      let widest := ws.foldl max 0
      let next := (ws.filter (· != widest)).foldl max 0
      narrow room n
        (reduce widest (min excess (widest - next)) excess (ws.count widest) ws)

structure Table where
  title : String
  headers : List String
  rows : List (List String)

namespace Table

/-- The cells of a row, one list of lines for each column. -/
def rowLines (widths : List Nat) (row : List String) : List (List (List Char)) :=
  List.zipWith (fun w s => (wrap (w - 2) false (shown s)).map (crop (w - 2))) widths row

def rowHeight (columns : List (List (List Char))) : Nat :=
  (columns.map List.length).foldl max 0

/-- The printed lines of a row. -/
def printRow (widths : List Nat) (row : List String) : List String :=
  let columns := rowLines widths row
  (List.range (rowHeight columns)).map fun i =>
    let parts := List.zipWith (fun w (lines : List (List Char)) =>
      ' ' :: ((lines[i]?).getD (List.replicate (w - 2) ' ') ++ [' '])) widths columns
    String.ofList ('│' :: (['│'].intercalate parts ++ ['│']))

def rule (left middle right : Char) (widths : List Nat) : String :=
  let spans := widths.map fun w => List.replicate w '─'
  String.ofList (left :: ([middle].intercalate spans ++ [right]))

def centred (width : Nat) (s : String) : String :=
  let cs := s.toList
  String.ofList (List.replicate ((width - cells cs) / 2) ' ' ++ cs)

/-- The natural width of each column, with a blank on both sides. -/
def naturalWidths (t : Table) : List Nat :=
  t.headers.zipIdx.map fun (header, i) =>
    let texts := header :: t.rows.filterMap (·[i]?)
    ((texts.map fun s => longestLine (shown s)).foldl max 0) + 2

/-- The lines of a table on a console of a given width. -/
def print (consoleWidth : Nat) (t : Table) : List String :=
  let room := consoleWidth - (t.headers.length + 1)
  let natural := t.naturalWidths
  let widths := narrow room (totalWidth natural) (natural.map (min room))
  let width := totalWidth widths + t.headers.length + 1
  [centred width t.title, rule '╭' '┬' '╮' widths] ++ printRow widths t.headers ++
    [rule '├' '┼' '┤' widths] ++ t.rows.flatMap (printRow widths) ++ [rule '╰' '┴' '╯' widths]

end Table

/-- A text on its own in a box. -/
def boxed (s : String) : List String :=
  let width := cells s.toList + 2
  [Table.rule '╭' '─' '╮' [width], "│ " ++ s ++ " │", Table.rule '╰' '─' '╯' [width]]

/-- A text as it is printed on a console of a given width. -/
def printText (consoleWidth : Nat) (cs : List Char) : List String :=
  (wrap consoleWidth true cs).map String.ofList

end Conform.Console
