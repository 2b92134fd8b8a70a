import Conform.Pattern.Problem

/-!
A pattern's characters with one token of lookahead. A backslash and the character after it are one
token, so a lone backslash at the end is met as soon as the token before it is taken.
-/
namespace Conform.Pattern

inductive Token
  | char (c : Char)
  | escape (c : Char)
  deriving DecidableEq

def Token.chars : Token → List Char
  | .char c => [c]
  | .escape c => ['\\', c]

def Token.text (t : Token) : String := String.ofList t.chars

/-- The next token, the characters after it, and how many have been read up to there. -/
structure Source where
  next : Option Token
  rest : List Char
  index : Nat

namespace Source

/-- The place of the next token. -/
def position (s : Source) : Nat := s.index - (s.next.map (·.chars.length)).getD 0

/-- Passes over the next token. -/
def advance (s : Source) : Except Rejection Source :=
  match s.rest with
  | [] => .ok { s with next := none }
  | ['\\'] => .error (.malformed .badEscapeAtEnd (some s.index))
  | '\\' :: c :: rest => .ok ⟨some (.escape c), rest, s.index + 2⟩
  | c :: rest => .ok ⟨some (.char c), rest, s.index + 1⟩

def start (cs : List Char) : Except Rejection Source := advance ⟨none, cs, 0⟩

/-- The next token as a plain character. -/
def nextChar? (s : Source) : Option Char :=
  match s.next with
  | some (.char c) => some c
  | _ => none

end Source

/-- What has been learnt of a pattern while it is read. `widths` holds the closed groups, by number
from one; an open group has no width yet. -/
structure Reading where
  source : Source
  flags : Flags
  widths : List (Option (Nat × Nat))
  names : List (String × Nat)
  /-- The number of groups before the outermost lookbehind that is being read. -/
  lookbehind : Option Nat
  /-- Groups that conditions refer to by number, with the place of the first. -/
  awaited : List (Nat × Nat)

namespace Reading

/-- The number that the next group gets. -/
def nextGroup (r : Reading) : Nat := r.widths.length + 1

/-- The width of a group that is closed. -/
def width? (r : Reading) (group : Nat) : Option (Nat × Nat) :=
  if group = 0 then none else ((r.widths[group - 1]?).getD none)

end Reading

/-- A step of reading, which may find a problem. -/
abbrev Read := StateT Reading (Except Rejection)

namespace Read

/-- Fails `back` characters before the next token. -/
def fail {α : Type} (problem : Problem) (back : Nat) : Read α := fun r =>
  .error (.malformed problem (some (r.source.position - back)))

/-- Fails at a fixed place. -/
def failAt {α : Type} (problem : Problem) (position : Nat) : Read α := fun _ =>
  .error (.malformed problem (some position))

def reject {α : Type} (e : Rejection) : Read α := fun _ => .error e

def position : Read Nat := return (← get).source.position

def next? : Read (Option Token) := return (← get).source.next

def nextChar? : Read (Option Char) := return (← get).source.nextChar?

def seek (s : Source) : Read Unit := modify fun r => { r with source := s }

/-- Takes the next token, which may be missing. -/
def take : Read (Option Token) := do
  let r ← get
  match r.source.advance with
  | .ok s =>
    seek s
    return r.source.next
  | .error e => reject e

/-- Takes the next token if it is the given character. -/
def takeIf (c : Char) : Read Bool := do
  if (← nextChar?) = some c then
    let _ ← take
    return true
  else return false

/-- Takes up to `n` characters of a class. -/
def takeWhile (holds : Char → Bool) : Nat → Read (List Char)
  | 0 => return []
  | n + 1 => do
    match ← nextChar? with
    | some c =>
      if holds c then
        let _ ← take
        return c :: (← takeWhile holds n)
      else return []
    | none => return []

/-- Takes a name up to its terminator, at most `n` tokens. -/
def takeName (terminator : Char) (what : String) : Nat → List Char → Read String
  | 0, name => return String.ofList name
  | n + 1, name => do
    match ← take with
    | none =>
      if name.isEmpty then fail (.missingName what) 0
      else fail (.unterminatedName terminator) name.length
    | some t =>
      if t = .char terminator then
        if name.isEmpty then fail (.missingName what) 1 else return String.ofList name
      else takeName terminator what n (name ++ t.chars)

end Read

end Conform.Pattern
