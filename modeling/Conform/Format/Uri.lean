import Conform.Text.Blank
import Conform.Format.Host

/-!
Resource identifiers: a path from the root, or a scheme with an authority or a path.
-/
namespace Conform.Format

/-- Schemes whose last path segment may carry parameters after a semicolon. -/
def schemesWithParameters : List String :=
  ["ftp", "hdl", "prospero", "http", "imap", "https", "shttp", "rtsp", "rtsps", "rtspu", "sip",
    "sips", "mms", "sftp", "tel"]

/-- Characters that turn into a delimiter under compatibility normalisation. -/
def disguisedDelimiters : List Nat :=
  [0x2047, 0x2048, 0x2049, 0x2100, 0x2101, 0x2105, 0x2106, 0x2a74, 0xfe13, 0xfe16, 0xfe55, 0xfe56,
    0xfe5f, 0xfe6b, 0xff03, 0xff0f, 0xff1a, 0xff1f, 0xff20]

def isSchemeChar (c : Char) : Bool := c.isAlphanum || c == '+' || c == '-' || c == '.'

/-- The scheme, in lower case, and what follows its colon. -/
def splitScheme (cs : List Char) : Option (List Char × List Char) :=
  let scheme := cs.takeWhile (· != ':')
  match cs.drop scheme.length with
  | ':' :: rest =>
    if scheme.head?.any Char.isAlpha && scheme.all isSchemeChar then
      some (scheme.map Char.toLower, rest)
    else none
  | _ => none

/-- A host in brackets: an address of the later version, or a future kind after a `v`. -/
def isBracketedHost (cs : List Char) : Bool :=
  match cs with
  | 'v' :: rest =>
    let digits := rest.takeWhile isHexDigit
    match rest.drop digits.length with
    | '.' :: _ :: _ => !digits.isEmpty
    | _ => false
  | _ => ipv6Chars cs

/-- Brackets come in both kinds around a proper host, and no character hides a delimiter. -/
def isAuthority (cs : List Char) : Bool :=
  let opens := cs.contains '['
  let closes := cs.contains ']'
  let bracketed := ((cs.dropWhile (· != '[')).drop 1).takeWhile (· != ']')
  opens == closes && (!opens || isBracketedHost bracketed) &&
    !cs.any fun c => disguisedDelimiters.contains c.toNat

def uriChars (cs : List Char) : Bool :=
  if cs.isEmpty || cs.any Text.isBlank then false
  else if cs.head? = some '/' then true
  else
    let cs := cs.dropWhile fun c => c.toNat ≤ 0x20
    let (scheme, rest) := (splitScheme cs).getD ([], cs)
    let (authority, rest) := match rest with
      | '/' :: '/' :: r =>
        let authority := r.takeWhile fun c => c != '/' && c != '?' && c != '#'
        (authority, r.drop authority.length)
      | r => ([], r)
    let path := (rest.takeWhile (· != '#')).takeWhile (· != '?')
    let path :=
      if schemesWithParameters.contains (String.ofList scheme) && !path.contains '/' then
        path.takeWhile (· != ';')
      else path
    isAuthority authority && !scheme.isEmpty && (!authority.isEmpty || !path.isEmpty)

def isUri (s : String) : Bool := uriChars s.toList

end Conform.Format
