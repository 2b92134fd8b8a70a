import Conform.Number.Literal
import Conform.Text.Identifier
import Conform.Pattern.Escape

/-!
Reading a pattern: alternatives of sequences, sets, repetitions, and the many kinds of groups.
-/
namespace Conform.Pattern

namespace Read

/-- The flag of a letter. -/
def flag? (c : Char) : Option Flags :=
  match c with
  | 'i' => some { ignoreCase := true }
  | 'm' => some { multiLine := true }
  | 's' => some { dotAll := true }
  | 'x' => some { verbose := true }
  | 'a' => some { ascii := true }
  | 'u' => some { unicode := true }
  | 't' => some { template := true }
  | 'L' => some {}
  | _ => none

def alphabets : Flags := { ascii := true, unicode := true }

def template : Flags := { template := true }

def letterOf? (t : Token) : Option Char :=
  match t with
  | .char c => some c
  | .escape _ => none

/-- Fails on a token that is no flag: a letter is an unknown flag. -/
def notAFlag {α : Type} (t : Token) (otherwise : Problem) : Read α :=
  let isLetter := (letterOf? t).any Text.isLetter
  fail (if isLetter then .unknownFlag else otherwise) t.chars.length

/-- Reads flags to turn on, from the first, up to the character that ends them. -/
def flagsOn : Nat → Flags → Char → Read (Flags × Char)
  | 0, on, c => return (on, c)
  | fuel + 1, on, c => do
    if c = 'L' then fail .localeFlag 0
    let on := on.union ((flag? c).getD {})
    if (c = 'a' || c = 'u') && on.ascii && on.unicode then fail .incompatibleFlags 0
    match ← take with
    | none => fail .missingFlagEnd 0
    | some t =>
      match letterOf? t with
      | some d =>
        if d = ')' || d = '-' || d = ':' then return (on, d)
        else if (flag? d).isSome then flagsOn fuel on d
        else notAFlag t .missingFlagEnd
      | none => notAFlag t .missingFlagEnd

/-- Reads flags to turn off, from the first, up to the colon. -/
def flagsOff : Nat → Flags → Char → Read Flags
  | 0, off, _ => return off
  | fuel + 1, off, c => do
    if c = 'a' || c = 'u' || c = 'L' then fail .alphabetFlagOff 0
    let off := off.union ((flag? c).getD {})
    match ← take with
    | none => fail .missingColon 0
    | some t =>
      match letterOf? t with
      | some ':' => return off
      | some d => if (flag? d).isSome then flagsOff fuel off d else notAFlag t .missingColon
      | none => notAFlag t .missingColon

/-- Reads inline flags from the first character after the question mark. Flags for the whole pattern
are put down and give nothing; flags for a group are given back. -/
def inlineFlags (fuel : Nat) (c : Char) : Read (Option (Flags × Flags)) := do
  let (on, last) ← if c = '-' then pure (({} : Flags), '-') else flagsOn fuel {} c
  if last = ')' then
    modify fun r => { r with flags := r.flags.union on }
    return none
  if on.template then fail .templateFlagOn 1
  let mut off : Flags := {}
  if last = '-' then
    match ← take with
    | none => fail .missingFlag 0
    | some t =>
      match letterOf? t with
      | some d => if (flag? d).isSome then off ← flagsOff fuel {} d else notAFlag t .missingFlag
      | none => notAFlag t .missingFlag
  if off.template then fail .templateFlagOff 1
  if on.meets off then fail .flagOnAndOff 1
  return some (on, off)

/-- Reads the items of a set up to its closing bracket; `here` is where the set starts. -/
def setItems (here : Nat) : Nat → List Item → Read (List Item)
  | 0, items => return items
  | fuel + 1, items => do
    let unterminated {α : Type} : Read α := failAt .unterminatedSet here
    match ← take with
    | none => unterminated
    | some this =>
      if this = .char ']' && !items.isEmpty then return items
      else
        let low ← match this with
          | .escape c => setEscape c
          | .char c => pure (.literal c.toNat)
        if ← takeIf '-' then
          match ← take with
          | none => unterminated
          | some that =>
            if that = .char ']' then return items ++ [low, .literal '-'.toNat]
            else
              let high ← match that with
                | .escape c => setEscape c
                | .char c => pure (.literal c.toNat)
              let back := this.chars.length + 1 + that.chars.length
              match low, high with
              | .literal a, .literal b =>
                if b < a then fail (.badRange this.text that.text) back
                else setItems here fuel (items ++ [.range a b])
              | _, _ => fail (.badRange this.text that.text) back
        else setItems here fuel (items ++ [low])

/-- A set as a piece; a set of one character is that character. -/
def setPiece (negated : Bool) (items : List Item) : Piece :=
  match items.eraseDups with
  | [.literal n] => if negated then .notLiteral n else .literal n
  | items => .set negated items

/-- The least and most counts of a repetition. -/
structure Bounds where
  least : Nat
  most : Option Nat

/-- Counts from here on are too large. -/
def tooMany : Nat := 0xffffffff

/-- Reads the counts after an opening brace, or gives nothing if they are no repetition, in which
case the brace is an ordinary character and reading goes on after it. -/
def bracedBounds (here : Nat) : Read (Option Bounds) := do
  if (← nextChar?) = some '\x7d' then return none
  let back := (← get).source
  let fuel := back.rest.length + 2
  let low ← takeWhile Char.isDigit fuel
  let high ← if ← takeIf ',' then takeWhile Char.isDigit fuel else pure low
  if !(← takeIf '\x7d') then
    seek back
    return none
  let least := valueIn 10 low
  if !low.isEmpty && tooMany ≤ least then reject .repetitionTooLarge
  if high.isEmpty then return some ⟨least, none⟩
  let most := valueIn 10 high
  if tooMany ≤ most then reject .repetitionTooLarge
  if most < least then failAt .repeatOrder here
  return some ⟨least, some most⟩

/-- The sign after a repetition that says how it goes about. -/
def readGreed : Read Greed := do
  if ← takeIf '?' then return .lazy
  if ← takeIf '+' then return .possessive
  return .greedy

/-- Repeats the last piece read. `here` is the place after the operator's first character. -/
def repeatLast (here : Nat) (bounds : Bounds) (done : List Piece) : Read (List Piece) := do
  match done with
  | [] | .anchor _ :: _ => failAt .nothingToRepeat (here - 1)
  | .repetition .. :: _ => failAt .multipleRepeat (here - 1)
  | last :: before =>
    let body := match last with
      | .group none on off body => if on = {} && off = {} then body else [last]
      | _ => [last]
    return .repetition (← readGreed) bounds.least bounds.most body :: before

def checkName (name : String) : Read Unit :=
  if Text.isIdentifier name.toList then return ()
  else fail (.badGroupName name) (name.length + 1)

def groupOfName (name : String) : Read Nat := do
  match (← get).names.lookup name with
  | some group => return group
  | none => fail (.unknownGroup name) (name.length + 1)

/-- Opens the next group, by name if it has one. -/
def openGroup (name : Option String) : Read Nat := do
  let r ← get
  let group := r.nextGroup
  set { r with widths := r.widths ++ [none] }
  if let some name := name then
    match r.names.lookup name with
    | some earlier => fail (.redefinedGroup name group earlier) (name.length + 1)
    | none => modify fun r => { r with names := r.names ++ [(name, group)] }
  return group

def closeGroup (group : Nat) (body : List Piece) : Read Unit :=
  modify fun r => { r with widths := r.widths.set (group - 1) (some (widthOf body)) }

/-- The group that a condition asks for, by name or number. -/
def conditionGroup : Read Nat := do
  let r ← get
  let name ← takeName ')' "group name" (r.source.rest.length + 2) []
  let group ←
    if Text.isIdentifier name.toList then groupOfName name
    else match Number.readInteger? name with
      | some (.ofNat n) =>
        if n = 0 then fail .badGroupNumber (name.length + 1)
        else if 0x40000000 ≤ n then fail (.invalidReference n) (name.length + 1)
        else
          let place := (← position) - name.length - 1
          modify fun r =>
            if r.awaited.any (·.1 == n) then r else { r with awaited := r.awaited ++ [(n, place)] }
          pure n
      | _ => fail (.badGroupName name) (name.length + 1)
  if let some known := r.lookbehind then
    if ((← get).width? group).isNone then fail .openGroup 0
    if known ≤ group then fail .groupOfSameLookbehind 0
  return group

/-- Passes over a comment up to its closing parenthesis. -/
def skipComment (start : Nat) : Nat → Read Unit
  | 0 => return ()
  | fuel + 1 => do
    if (← next?).isNone then failAt .unterminatedComment start
    if (← take) = some (.char ')') then return () else skipComment start fuel

/-- Passes over the rest of a line. -/
def skipLine : Nat → Read Unit
  | 0 => return ()
  | fuel + 1 => do
    match ← take with
    | none => return ()
    | some t => if t = .char '\n' then return () else skipLine fuel

def expectClose (start : Nat) : Read Unit := do
  if ← takeIf ')' then return () else failAt .unterminatedGroup start

def isPatternSpace (c : Char) : Bool :=
  c = ' ' || c = '\t' || c = '\n' || c = '\r' || c = '\x0b' || c = '\x0c'

/-- What an opening parenthesis starts. -/
inductive Opening
  | capture (name : Option String)
  | plain (on off : Flags)
  | atomic
  | look (ahead negated : Bool)
  | condition (group : Nat)
  /-- Something already complete, such as a reference by name. -/
  | finished (piece : Option Piece)
  /-- Flags for the whole pattern. -/
  | settings

/-- Reads the kind of a group after the opening parenthesis at `start`. -/
def opening (start fuel : Nat) : Read Opening := do
  if !(← takeIf '?') then return .capture none
  match ← take with
  | none => fail .unexpectedEnd 0
  | some t =>
    let unknown : Read Opening := fail (.unknownExtension ("?" ++ t.text)) (t.chars.length + 1)
    match letterOf? t with
    | none => unknown
    | some 'P' =>
      if ← takeIf '<' then
        let name ← takeName '>' "group name" fuel []
        checkName name
        return .capture (some name)
      if ← takeIf '=' then
        let name ← takeName ')' "group name" fuel []
        checkName name
        let group ← groupOfName name
        return .finished (some (← groupReference group (name.length + 1)))
      match ← take with
      | none => fail .unexpectedEnd 0
      | some u => fail (.unknownExtension ("?P" ++ u.text)) (u.chars.length + 2)
    | some ':' => return .plain {} {}
    | some '#' =>
      skipComment start fuel
      return .finished none
    | some '=' => return .look true false
    | some '!' => return .look true true
    | some '<' =>
      match ← take with
      | none => fail .unexpectedEnd 0
      | some u =>
        if u = .char '=' then return .look false false
        else if u = .char '!' then return .look false true
        else fail (.unknownExtension ("?<" ++ u.text)) (u.chars.length + 2)
    | some '(' => return .condition (← conditionGroup)
    | some '>' => return .atomic
    | some c =>
      if c = '-' || (flag? c).isSome then
        match ← inlineFlags fuel c with
        | none => return .settings
        | some (on, off) => return .plain on off
      else unknown

mutual

/-- Reads alternatives up to the end or a closing parenthesis. `top` holds for the whole pattern,
where flags met on the way hold from the next alternative on. Each call takes a token before it
comes back to itself, so a fuel of a few times the length is enough. -/
def alternatives (top : Bool) : Nat → Bool → List (List Piece) → Read (List Piece)
  | 0, _, _ => return []
  | fuel + 1, verbose, done => do
    let next ← sequence (top && done.isEmpty) fuel verbose []
    let done := done ++ [next]
    if ← takeIf '|' then
      let r ← get
      alternatives top fuel (if top then r.flags.verbose else verbose) done
    else match done with
      | [only] => return only
      | _ => return [.branch done]

/-- Reads one sequence; `done` holds the pieces so far, last first. -/
def sequence (first : Bool) : Nat → Bool → List Piece → Read (List Piece)
  | 0, _, done => return done.reverse
  | fuel + 1, verbose, done => do
    match ← next? with
    | none => return done.reverse
    | some this =>
      if this = .char '|' || this = .char ')' then return done.reverse
      let _ ← take
      match this with
      | .escape c =>
        let piece ← pieceEscape c
        sequence first fuel verbose (piece :: done)
      | .char c =>
        if verbose && isPatternSpace c then sequence first fuel verbose done
        else if verbose && c = '#' then
          skipLine fuel
          sequence first fuel verbose done
        else if c = '[' then
          let here := (← position) - 1
          let negated ← takeIf '^'
          let items ← setItems here fuel []
          sequence first fuel verbose (setPiece negated items :: done)
        else if c = '.' then sequence first fuel verbose (.any :: done)
        else if c = '^' then sequence first fuel verbose (.anchor .lineStart :: done)
        else if c = '$' then sequence first fuel verbose (.anchor .lineEnd :: done)
        else if c = '?' then
          let done ← repeatLast (← position) ⟨0, some 1⟩ done
          sequence first fuel verbose done
        else if c = '*' then
          let done ← repeatLast (← position) ⟨0, none⟩ done
          sequence first fuel verbose done
        else if c = '+' then
          let done ← repeatLast (← position) ⟨1, none⟩ done
          sequence first fuel verbose done
        else if c = '\x7b' then
          let here ← position
          match ← bracedBounds here with
          | none => sequence first fuel verbose (.literal c.toNat :: done)
          | some bounds =>
            let done ← repeatLast here bounds done
            sequence first fuel verbose done
        else if c = '(' then
          let start := (← position) - 1
          match ← opening start fuel with
          | .finished piece => sequence first fuel verbose (piece.toList ++ done)
          | .settings =>
            let r ← get
            if !first || !done.isEmpty then failAt .lateFlags start
            sequence first fuel r.flags.verbose done
          | .look ahead negated =>
            let outer := (← get).lookbehind
            if !ahead && outer.isNone then
              modify fun r => { r with lookbehind := some r.nextGroup }
            let body ← alternatives false fuel verbose []
            if !ahead && outer.isNone then modify fun r => { r with lookbehind := none }
            expectClose start
            sequence first fuel verbose (.look ahead negated body :: done)
          | .condition group =>
            let yes ← sequence false fuel verbose []
            let no ← if ← takeIf '|' then
                let no ← sequence false fuel verbose []
                if (← nextChar?) = some '|' then fail .thirdBranch 0
                pure (some no)
              else pure none
            expectClose start
            sequence first fuel verbose (.condition group yes no :: done)
          | .atomic =>
            let body ← alternatives false fuel verbose []
            expectClose start
            sequence first fuel verbose (.atomic body :: done)
          | .plain on off =>
            let inner := (verbose || on.verbose) && !off.verbose
            let body ← alternatives false fuel inner []
            expectClose start
            sequence first fuel verbose (.group none on off body :: done)
          | .capture name =>
            let group ← openGroup name
            let body ← alternatives false fuel verbose []
            expectClose start
            closeGroup group body
            sequence first fuel verbose (.group (some group) {} {} body :: done)
        else sequence first fuel verbose (.literal c.toNat :: done)

end

end Read

/-- The longest text that a lookbehind may cover. -/
def farthest : Nat := 0xffffffff

def Greed.operator : Greed → String
  | .greedy => "MAX_REPEAT"
  | .lazy => "MIN_REPEAT"
  | .possessive => "POSSESSIVE_REPEAT"

mutual

/-- The first problem, in reading order, that shows only when the whole pattern is known. -/
def Piece.flaw? (template : Bool) : Piece → Option Problem
  | .branch alternatives => flawOfAlternatives? template alternatives
  | .group _ on off body => flawOf? ((template || on.template) && !off.template) body
  | .atomic body => flawOf? template body
  | .repetition greed _ _ body =>
    if template then some (.templateRepeat greed.operator) else flawOf? template body
  | .condition _ yes no =>
    (flawOf? template yes).or (match no with
      | some no => flawOf? template no
      | none => none)
  | .look ahead _ body =>
    let (least, most) := widthOf body
    if ahead then flawOf? template body
    else if farthest < least then some .tooFarBehind
    else if least ≠ most then some .variableBehind
    else flawOf? template body
  | _ => none

def flawOf? (template : Bool) : List Piece → Option Problem
  | [] => none
  | p :: ps => (p.flaw? template).or (flawOf? template ps)

def flawOfAlternatives? (template : Bool) : List (List Piece) → Option Problem
  | [] => none
  | a :: as => (flawOf? template a).or (flawOfAlternatives? template as)

end

end Conform.Pattern

namespace Conform

/-- A pattern that can be searched for: its text, the flags it starts with, and its pieces. -/
structure Pattern where
  source : String
  flags : Pattern.Flags
  pieces : List Pattern.Piece
  deriving DecidableEq

namespace Pattern

def compile (text : String) : Except Rejection Pattern := do
  let cs := text.toList
  let source ← Source.start cs
  let fuel := 4 * cs.length + 8
  let (pieces, r) ← (Read.alternatives true fuel false []).run ⟨source, {}, [], [], none, []⟩
  if r.flags.ascii && r.flags.unicode then .error .conflictingAlphabets
  let flags := if r.flags.ascii then r.flags else { r.flags with unicode := true }
  if r.source.next.isSome then .error (.malformed .unbalanced (some r.source.position))
  if let some (group, place) := r.awaited.find? fun a => r.nextGroup ≤ a.1 then
    .error (.malformed (.invalidReference group) (some place))
  match flawOf? flags.template pieces with
  | some problem => .error (.malformed problem none)
  | none => .ok ⟨text, flags, pieces⟩

/-- What a text is compiled to can be checked by running the compiler. -/
theorem compile_eq_ok {text : String} {p : Pattern} (h : (compile text).toOption = some p) :
    compile text = .ok p := by
  cases compiled : compile text with
  | error r =>
    rw [compiled] at h
    cases h
  | ok q =>
    rw [compiled] at h
    exact congrArg Except.ok (Option.some.inj h)

end Pattern

end Conform
