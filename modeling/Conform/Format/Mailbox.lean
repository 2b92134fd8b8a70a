import Conform.Text.Blank

/-!
Mail addresses as they stand in a message header: names, comments, quoted parts, groups and routes
around the address proper. A text is accepted when it holds one address with a local part and a
domain.
-/
namespace Conform.Format.Mailbox

def isSpace (c : Char) : Bool := c == ' ' || c == '\t'

def isFolding (c : Char) : Bool := isSpace c || c == '\r' || c == '\n'

def specials : List Char := ['(', ')', '<', '>', '@', ',', ':', ';', '.', '"', '[', ']']

def endsAtom (c : Char) : Bool := specials.contains c || isFolding c

def endsPhraseAtom (c : Char) : Bool := c != '.' && endsAtom c

/-- A delimited part after its opening character: content and rest. A backslash takes the next
character as it is. -/
def delimited (stop : Char) : List Char → List Char × List Char
  | [] => ([], [])
  | '\\' :: c :: cs =>
    let (content, rest) := delimited stop cs
    (c :: content, rest)
  | ['\\'] => ([], [])
  | c :: cs =>
    if c = stop || c = '\r' then ([], cs)
    else
      let (content, rest) := delimited stop cs
      (c :: content, rest)

/-- What follows a comment, after its opening parenthesis; comments nest to the given depth. -/
def afterComment : Nat → List Char → List Char
  | _, [] => []
  | depth, '\\' :: _ :: cs => afterComment depth cs
  | _, ['\\'] => []
  | depth, c :: cs =>
    if c = ')' || c = '\r' then
      match depth with
      | 0 => cs
      | outer + 1 => afterComment outer cs
    else if c = '(' then afterComment (depth + 1) cs
    else afterComment depth cs

/-- Passes over blanks, line breaks and comments; gives the blanks that were seen. -/
def skip : Nat → List Char → List Char × List Char
  | 0, cs => ([], cs)
  | _, [] => ([], [])
  | fuel + 1, c :: cs =>
    if isSpace c then
      let (blanks, rest) := skip fuel cs
      (c :: blanks, rest)
    else if c = '\r' || c = '\n' then skip fuel cs
    else if c = '(' then skip fuel (afterComment 0 cs)
    else ([], c :: cs)

def skipAll (cs : List Char) : List Char × List Char := skip (cs.length + 1) cs

def atom (ends : Char → Bool) (cs : List Char) : List Char × List Char :=
  (cs.takeWhile (!ends ·), cs.dropWhile (!ends ·))

/-- A quoted part, written back with its quotes and escapes. -/
def requote (content : List Char) : List Char :=
  '"' :: (content.flatMap fun c => if c = '\\' || c = '"' then ['\\', c] else [c]) ++ ['"']

/-- The words before an address proper. -/
def phrases : Nat → List Char → List (List Char) × List Char
  | 0, cs => ([], cs)
  | _, [] => ([], [])
  | fuel + 1, c :: cs =>
    if isFolding c then phrases fuel cs
    else if c = '"' then
      let (content, rest) := delimited '"' cs
      let (more, rest) := phrases fuel rest
      (content :: more, rest)
    else if c = '(' then phrases fuel (afterComment 0 cs)
    else if endsPhraseAtom c then ([], c :: cs)
    else
      let (word, rest) := atom endsPhraseAtom (c :: cs)
      let (more, rest) := phrases fuel rest
      (word :: more, rest)

/-- A domain; nothing if a second at sign follows. -/
def domain : Nat → List Char → List Char → List Char × List Char
  | 0, acc, cs => (acc, cs)
  | _, acc, [] => (acc, [])
  | fuel + 1, acc, c :: cs =>
    if isSpace c then domain fuel acc cs
    else if c = '(' then domain fuel acc (afterComment 0 cs)
    else if c = '[' then
      let (content, rest) := delimited ']' cs
      domain fuel (acc ++ ['['] ++ content ++ [']']) rest
    else if c = '.' then domain fuel (acc ++ ['.']) cs
    else if c = '@' then ([], c :: cs)
    else if endsAtom c then (acc, c :: cs)
    else
      let (word, rest) := atom endsAtom (c :: cs)
      domain fuel (acc ++ word) rest

/-- The parts so far, last first, without a blank one at the end. -/
def dropBlank (parts : List (List Char)) : List (List Char) :=
  match parts with
  | p :: ps => if p.all Text.isBlank then ps else parts
  | [] => []

/-- The local part of an address, as its pieces, last first. -/
def localPart : Nat → List (List Char) → List Char → List (List Char) × List Char
  | 0, parts, cs => (parts, cs)
  | _, parts, [] => (parts, [])
  | fuel + 1, parts, c :: cs =>
    if c = '.' then
      let (_, rest) := skipAll cs
      localPart fuel (['.'] :: dropBlank parts) rest
    else if c ≠ '"' && endsAtom c then (dropBlank parts, c :: cs)
    else
      let (part, rest) :=
        if c = '"' then
          let (content, rest) := delimited '"' cs
          (requote content, rest)
        else atom endsAtom (c :: cs)
      let (blanks, rest) := skipAll rest
      localPart fuel (if blanks.isEmpty then part :: parts else blanks :: part :: parts) rest

/-- An address proper: a local part, and a domain if an at sign follows. -/
def address (cs : List Char) : List Char × List Char :=
  let (_, cs) := skipAll cs
  let (parts, rest) := localPart (cs.length + 1) [] cs
  let before := parts.reverse.flatten
  match rest with
  | '@' :: rest =>
    let (_, rest) := skipAll rest
    let (dom, rest) := domain (rest.length + 1) [] rest
    (if dom.isEmpty then [] else before ++ ['@'] ++ dom, rest)
  | rest => (before, rest)

/-- An address in angle brackets, after the opening one, past any route. -/
def route : Nat → Bool → List Char → List Char × List Char
  | 0, _, cs => ([], cs)
  | _, _, [] => ([], [])
  | fuel + 1, expected, c :: cs =>
    if expected then
      let (_, rest) := domain (cs.length + 2) [] (c :: cs)
      route fuel false (skipAll rest).2
    else if c = '>' then ([], cs)
    else if c = '@' then route fuel true (skipAll cs).2
    else if c = ':' then route fuel false (skipAll cs).2
    else
      let (found, rest) := address (c :: cs)
      (found, rest.drop 1)

def dropComma : List Char → List Char
  | ',' :: cs => cs
  | cs => cs

mutual

/-- The addresses of one entry, none if it holds no address, and the rest. -/
def entry : Nat → List Char → List (List Char) × List Char
  | 0, cs => ([], cs)
  | fuel + 1, cs =>
    let (_, start) := skipAll cs
    let (words, rest) := phrases (start.length + 1) start
    let (_, rest) := skipAll rest
    let (found, rest) := match rest with
      | [] => (words.take 1, [])
      | c :: after =>
        if c = '.' || c = '@' then
          let (found, rest) := address start
          ([found], rest)
        else if c = ':' then group fuel after
        else if c = '<' then
          let (found, rest) := route (after.length + 1) false (skipAll after).2
          ([found], rest)
        else if !words.isEmpty then (words.take 1, c :: after)
        else if specials.contains c then ([], after)
        else ([], c :: after)
    (found, dropComma (skipAll rest).2)

/-- The entries of a group up to its semicolon. -/
def group : Nat → List Char → List (List Char) × List Char
  | 0, cs => ([], cs)
  | _, [] => ([], [])
  | fuel + 1, cs =>
    match (skipAll cs).2 with
    | ';' :: rest => ([], rest)
    | rest =>
      let (found, rest) := entry fuel rest
      let (more, rest) := group fuel rest
      (found ++ more, rest)

end

/-- All addresses of a text; an entry without one counts as an empty address. -/
def entries : Nat → List Char → List (List Char)
  | 0, _ => []
  | _, [] => []
  | fuel + 1, cs =>
    let (found, rest) := entry (2 * cs.length + 2) cs
    (if found.isEmpty then [[]] else found) ++ entries fuel rest

/-- The text without its quoted parts. The first argument is the text since a quote was opened. -/
def unquoted : Option (List Char) → List Char → List Char
  | none, [] => []
  | some pending, [] => '"' :: pending.reverse
  | none, '\\' :: c :: cs => '\\' :: c :: unquoted none cs
  | some pending, '\\' :: c :: cs => unquoted (some (c :: '\\' :: pending)) cs
  | none, c :: cs => if c = '"' then unquoted (some []) cs else c :: unquoted none cs
  | some pending, c :: cs =>
    if c = '"' then unquoted none cs else unquoted (some (c :: pending)) cs

/-- Whether parentheses balance from the given depth, escaped ones left aside. -/
def balanced : Nat → List Char → Bool
  | depth, [] => depth == 0
  | depth, '\\' :: _ :: cs => balanced depth cs
  | depth, c :: cs =>
    if c = '(' then balanced (depth + 1) cs
    else if c = ')' then
      match depth with
      | 0 => false
      | outer + 1 => balanced outer cs
    else balanced depth cs

/-- The one address that a text holds. -/
def address? (cs : List Char) : Option (List Char) :=
  if !balanced 0 (unquoted none cs) then none
  else match entries (cs.length + 1) cs with
    | [found] => if found.contains '[' then none else some found
    | _ => none

def accepts (s : String) : Bool :=
  match address? s.toList with
  | none => false
  | some found =>
    found.count '@' == 1 && found.head? != some '@' && found.getLast? != some '@' &&
      !found.contains ' '

end Conform.Format.Mailbox
