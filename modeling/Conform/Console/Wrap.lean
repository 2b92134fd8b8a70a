import Conform.Text.Blank
import Conform.Text.Split
import Conform.Text.Width

/-!
Text on a console: what is shown of it, and how it is broken into lines of a given width. Lines
break between words; a word too long for a line is either cut into pieces or left for cropping.
-/
namespace Conform.Console

open Text

/-- The rest of a tag in square brackets, if the text goes on like one. -/
def tagRest? : List Char → Option (List Char)
  | [] => none
  | c :: cs =>
    if c = ']' then some [']']
    else if c = '[' then none
    else (tagRest? cs).map (c :: ·)

def tag? : List Char → Option (List Char)
  | c :: cs =>
    if ('a' ≤ c && c ≤ 'z') || c = '#' || c = '/' || c = '@' then (tagRest? cs).map (c :: ·)
    else none
  | [] => none

/-- Drops the backslash before an opening bracket that starts no tag. The first argument bounds the
length of the text. -/
def bareBrackets : Nat → List Char → List Char
  | 0, cs => cs
  | _, [] => []
  | n + 1, '\\' :: '[' :: cs =>
    match tag? cs with
    | some tag => '\\' :: '[' :: (tag ++ bareBrackets n (cs.drop tag.length))
    | none => '[' :: bareBrackets n cs
  | n + 1, '[' :: cs =>
    match tag? cs with
    | some tag => '[' :: (tag ++ bareBrackets n (cs.drop tag.length))
    | none => '[' :: bareBrackets n cs
  | n + 1, c :: cs => c :: bareBrackets n cs

/-- Controls that never reach the console. -/
def isDropped (c : Char) : Bool :=
  let n := c.toNat
  n == 7 || n == 8 || n == 11 || n == 12 || n == 13

/-- One backslash at the end of a text is shown twice. -/
def closed (cs : List Char) : List Char :=
  match cs.reverse with
  | '\\' :: '\\' :: _ => cs
  | '\\' :: _ => cs ++ ['\\']
  | _ => cs

/-- What is shown of a text. -/
def shown (s : String) : List Char :=
  let cs := s.toList
  (closed (bareBrackets cs.length cs)).filter (!isDropped ·)

/-- Fills up with blanks to the next multiple of eight at each tab. -/
def expandTabs : Nat → List Char → List Char
  | _, [] => []
  | column, '\t' :: cs =>
    let gap := 8 - column % 8
    List.replicate gap ' ' ++ expandTabs (column + gap) cs
  | column, c :: cs => c :: expandTabs (column + width c) cs

/-- Splits off the first word with the blanks around it. -/
def firstWord (cs : List Char) : List Char × List Char :=
  let (lead, rest) := cs.span isBlank
  let (word, rest) := rest.span (!isBlank ·)
  let (trail, rest) := rest.span isBlank
  (lead ++ word ++ trail, rest)

/-- The words of a line, each with the blanks after it, the first also with those before. A line of
blanks has none. The first argument bounds the length of the line. -/
def words : Nat → List Char → List (List Char)
  | 0, _ => []
  | n + 1, cs =>
    if cs.all isBlank then []
    else
      let (word, rest) := firstWord cs
      word :: words n rest

def trimEnd (cs : List Char) : List Char := (cs.reverse.dropWhile isBlank).reverse

/-- Pieces of at most the given width. -/
def chop (limit : Nat) : List Char → Nat → List Char → List (List Char)
  | piece, _, [] => [piece.reverse]
  | piece, used, c :: cs =>
    if limit < used + width c then piece.reverse :: chop limit [c] (width c) cs
    else chop limit (c :: piece) (used + width c) cs

/-- A line in the making: the lines before it, its text, and the cells used. -/
structure Filling where
  done : List (List Char) := []
  current : List Char := []
  used : Nat := 0

namespace Filling

def lines (f : Filling) : List (List Char) := f.done ++ [f.current]

/-- Starts a line with a piece, unless the one before has nothing in it yet. -/
def start (f : Filling) (piece : List Char) : Filling :=
  if f.current.isEmpty then { f with current := piece, used := cells piece }
  else { done := f.lines, current := piece, used := cells piece }

def add (limit : Nat) (fold : Bool) (f : Filling) (word : List Char) : Filling :=
  let size := cells (trimEnd word)
  if f.used + size ≤ limit then
    { f with current := f.current ++ word, used := f.used + cells word }
  else if limit < size && fold then (chop limit [] 0 word).foldl start f
  else f.start word

end Filling

/-- Drops blanks at the end as far as the line has more characters than the limit. -/
def trimTo (limit : Nat) (cs : List Char) : List Char :=
  let blanks := (cs.reverse.takeWhile isBlank).length
  cs.take (cs.length - min blanks (cs.length - limit))

/-- Breaks a line that has no line feeds in it. -/
def breakLine (limit : Nat) (fold : Bool) (cs : List Char) : List (List Char) :=
  let cs := expandTabs 0 cs
  let ws := words cs.length cs
  let lines := if ws.isEmpty then [cs] else (ws.foldl (Filling.add limit fold) {}).lines
  lines.map (trimTo limit)

def wrap (limit : Nat) (fold : Bool) (cs : List Char) : List (List Char) :=
  (splitAt '\n' cs).flatMap (breakLine limit fold)

/-- The start of a text that takes the given cells, filled up with blanks. -/
def fill : Nat → List Char → List Char
  | n, [] => List.replicate n ' '
  | n, c :: cs => if width c ≤ n then c :: fill (n - width c) cs else List.replicate n ' '

/-- A line of exactly the given width, with an ellipsis where it had to be cropped. -/
def crop (limit : Nat) (cs : List Char) : List Char :=
  if cells cs ≤ limit then fill limit cs else fill (limit - 1) cs ++ ['…']

end Conform.Console
