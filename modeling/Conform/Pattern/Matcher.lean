import Conform.Text.Blank
import Conform.Text.Digit
import Conform.Text.Letter
import Conform.Text.Case
import Conform.Pattern.Reader

/-!
Matching by backtracking. What is still to be matched is a stack of tasks; each step takes one task,
and a choice tries its ways in order with the rest of the stack behind each.
-/
namespace Conform.Pattern

def Category.holds (ascii : Bool) (kind : Category) (c : Char) : Bool :=
  match kind with
  | .digit => if ascii then c.isDigit else Text.isDigit c
  | .space =>
    if ascii then c == ' ' || (9 ≤ c.toNat && c.toNat ≤ 13) else Text.isBlank c
  | .word => if ascii then c.isAlphanum || c == '_' else Text.isWord c

/-- The lower case that the flags call for. -/
def fold (flags : Flags) (code : Nat) : Nat :=
  if !flags.ignoreCase then code
  else if flags.ascii then Text.lowerAscii code
  else Text.lowerCode code

/-- Whether two code points are the same letter under the flags. -/
def sameLetter (flags : Flags) (a b : Nat) : Bool :=
  if flags.ignoreCase && !flags.ascii then
    (Text.variants (Text.lowerCode a)).contains (Text.lowerCode b)
  else fold flags a == fold flags b

/-- Whether a range has a code point that is the same letter as `code`. -/
def rangeHolds (flags : Flags) (low high code : Nat) : Bool :=
  let within (n : Nat) : Bool := low ≤ n && n ≤ high
  if !flags.ignoreCase then within code
  else if flags.ascii then
    within code || within (Text.lowerAscii code) ||
      (97 ≤ code && code ≤ 122 && within (code - 32))
  else
    (Text.variants (Text.lowerCode code)).any fun n => within n || (Text.upperCodes n).any within

def Item.holds (flags : Flags) (c : Char) : Item → Bool
  | .literal n => sameLetter flags n c.toNat
  | .range low high => rangeHolds flags low high c.toNat
  | .category kind negated => kind.holds flags.ascii c != negated

/-- Whether a piece of one character takes `c`; other pieces give nothing. -/
def Piece.takes? (flags : Flags) (c : Char) : Piece → Option Bool
  | .literal n => some (sameLetter flags n c.toNat)
  | .notLiteral n => some (!sameLetter flags n c.toNat)
  | .any => some (flags.dotAll || c != '\n')
  | .set negated items => some (items.any (·.holds flags c) != negated)
  | _ => none

/-- Where a match stands, and what its groups hold: start and end by number, newest first. -/
structure Progress where
  position : Nat
  groups : List (Nat × Nat × Nat)

def Progress.group? (p : Progress) (n : Nat) : Option (Nat × Nat) := p.groups.lookup n

/-- The part of the text that a group holds. -/
def Progress.held? (p : Progress) (text : String) (n : Nat) : Option String :=
  (p.group? n).map fun (start, stop) =>
    String.ofList ((text.toList.drop start).take (stop - start))

def wordAt (flags : Flags) (text : Array Char) (p : Nat) : Bool :=
  (text[p]?).any (Category.word.holds flags.ascii)

def Anchor.holds (flags : Flags) (text : Array Char) (p : Nat) (kind : Anchor) : Bool :=
  let boundary := (0 < p && wordAt flags text (p - 1)) != wordAt flags text p
  match kind with
  | .textStart => p == 0
  | .textEnd => p == text.size
  | .lineStart => p == 0 || (flags.multiLine && text[p - 1]? == some '\n')
  | .lineEnd =>
    p == text.size || (text[p]? == some '\n' && (flags.multiLine || p + 1 == text.size))
  | .boundary => !text.isEmpty && boundary
  | .inside => !text.isEmpty && !boundary

/-- Whether the text from `p` on repeats what stands from `start` to `stop`. -/
def repeats (flags : Flags) (text : Array Char) (start stop p : Nat) : Bool :=
  (List.range (stop - start)).all fun i =>
    match text[start + i]?, text[p + i]? with
    | some a, some b => fold flags a.toNat == fold flags b.toNat
    | _, _ => false

/-- A repetition in progress. -/
structure Loop where
  flags : Flags
  greed : Greed
  least : Nat
  most : Option Nat
  body : List Piece

def Loop.mayGoOn (l : Loop) (count : Nat) : Bool :=
  match l.most with
  | none => true
  | some m => count < m

inductive Task
  | pieces (flags : Flags) (ps : List Piece)
  | close (group start : Nat)
  /-- Decides on another round after `count` of them; `last` is where the latest one that was not
  required began, since a round that takes nothing is the last. -/
  | again (loop : Loop) (count : Nat) (last : Option Nat)

def run (text : Array Char) : Nat → List Task → Progress → Option Progress
  | 0, _, _ => none
  | _ + 1, [], st => some st
  | fuel + 1, .close group start :: rest, st =>
    run text fuel rest { st with groups := (group, start, st.position) :: st.groups }
  | fuel + 1, .again loop count last :: rest, st =>
    let body := Task.pieces loop.flags loop.body
    let progressed := last != some st.position
    if loop.greed = .possessive then
      if count < loop.least then
        match run text fuel [body] st with
        | some st => run text fuel (.again loop (count + 1) last :: rest) st
        | none => none
      else if loop.mayGoOn count && progressed then
        match run text fuel [body] st with
        | some st' => run text fuel (.again loop (count + 1) (some st.position) :: rest) st'
        | none => run text fuel rest st
      else run text fuel rest st
    else if count < loop.least then
      run text fuel (body :: .again loop (count + 1) last :: rest) st
    else
      let more := loop.mayGoOn count && progressed
      let another := Task.again loop (count + 1) (some st.position)
      if loop.greed = .greedy then
        if more then (run text fuel (body :: another :: rest) st).or (run text fuel rest st)
        else run text fuel rest st
      else
        match run text fuel rest st with
        | some st => some st
        | none => if more then run text fuel (body :: another :: rest) st else none
  | fuel + 1, .pieces _ [] :: rest, st => run text fuel rest st
  | fuel + 1, .pieces flags (p :: ps) :: rest, st =>
    let rest := Task.pieces flags ps :: rest
    match p with
    | .anchor kind => if kind.holds flags text st.position then run text fuel rest st else none
    | .branch alternatives =>
      alternatives.findSome? fun a => run text fuel (.pieces flags a :: rest) st
    | .group capture on off body =>
      let inner := Task.pieces (flags.within on off) body
      match capture with
      | some n => run text fuel (inner :: .close n st.position :: rest) st
      | none => run text fuel (inner :: rest) st
    | .atomic body =>
      match run text fuel [.pieces flags body] st with
      | some st => run text fuel rest st
      | none => none
    | .repetition greed least most body =>
      run text fuel (.again ⟨flags, greed, least, most, body⟩ 0 none :: rest) st
    | .reference group _ _ =>
      match st.group? group with
      | some (start, stop) =>
        if repeats flags text start stop st.position then
          run text fuel rest { st with position := st.position + (stop - start) }
        else none
      | none => none
    | .condition group yes no =>
      match st.group? group with
      | some _ => run text fuel (.pieces flags yes :: rest) st
      | none => run text fuel (.pieces flags (no.getD []) :: rest) st
    | .look ahead negated body =>
      let back := if ahead then 0 else (widthOf body).1
      let found :=
        if st.position < back then none
        else run text fuel [.pieces flags body] { st with position := st.position - back }
      match found with
      | some st' =>
        if negated then none else run text fuel rest { st' with position := st.position }
      | none => if negated then run text fuel rest st else none
    | p =>
      match text[st.position]? with
      | some c =>
        if (p.takes? flags c).getD false then
          run text fuel rest { st with position := st.position + 1 }
        else none
      | none => none

mutual

/-- A bound on the steps that a piece can take along one way through a text of `n` characters: a
loop goes round at most once for each required round and each character, and once more. -/
def Piece.steps (n : Nat) : Piece → Nat
  | .branch alternatives => 2 + stepsOfAlternatives n alternatives
  | .group _ _ _ body | .atomic body | .look _ _ body => 4 + stepsOf n body
  | .repetition _ least _ body => 4 + (least + n + 3) * (stepsOf n body + 2)
  | .condition _ yes none => 2 + stepsOf n yes
  | .condition _ yes (some no) => 2 + stepsOf n yes + stepsOf n no
  | _ => 2

def stepsOf (n : Nat) : List Piece → Nat
  | [] => 1
  | p :: ps => p.steps n + stepsOf n ps

def stepsOfAlternatives (n : Nat) : List (List Piece) → Nat
  | [] => 0
  | a :: as => stepsOf n a + stepsOfAlternatives n as

end

/-- Whether the pattern matches somewhere in the text. -/
def search (p : Pattern) (text : String) : Bool :=
  let cs := text.toList.toArray
  let fuel := stepsOf cs.size p.pieces + 2
  (List.range (cs.size + 1)).any fun start =>
    (run cs fuel [.pieces p.flags p.pieces] ⟨start, []⟩).isSome

/-- How far the pattern goes from the beginning of the text, and what its groups hold then. -/
def matchStart? (p : Pattern) (text : String) : Option Progress :=
  let cs := text.toList.toArray
  let fuel := stepsOf cs.size p.pieces + 2
  run cs fuel [.pieces p.flags p.pieces] ⟨0, []⟩

/-- Whether the pattern matches at the beginning of the text. -/
def matchesStart (p : Pattern) (text : String) : Bool := (p.matchStart? text).isSome

end Conform.Pattern
