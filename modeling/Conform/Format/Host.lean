import Conform.Pattern.Matcher
import Conform.Text.Split

/-!
Host names, network addresses and universally unique identifiers.
-/
namespace Conform.Format

/-- The text without a line break at its very end. -/
def dropFinalBreak (cs : List Char) : List Char :=
  if cs.getLast? = some '\n' then cs.dropLast else cs

/-- The first or last character of a label of a host name. -/
def labelEdge : Pattern.Piece := .set false [.range 97 122, .range 65 90, .range 48 57]

/-- Any other one, which may be a hyphen. -/
def labelInner : Pattern.Piece :=
  .set false [.range 97 122, .range 65 90, .range 48 57, .literal 45]

/-- A label: one character, or two with up to 61 between them. -/
def label : Pattern.Piece :=
  .branch [[labelEdge], [labelEdge, .repetition .greedy 0 (some 61) [labelInner], labelEdge]]

/-- Labels with dots between them. -/
def hostnamePattern : Pattern where
  source := "^([a-zA-Z0-9]|[a-zA-Z0-9][a-zA-Z0-9\\-]\x7b0,61\x7d[a-zA-Z0-9])" ++
    "(\\.([a-zA-Z0-9]|[a-zA-Z0-9][a-zA-Z0-9\\-]\x7b0,61\x7d[a-zA-Z0-9]))*$"
  flags := { unicode := true }
  pieces :=
    [.anchor .lineStart, .group (some 1) {} {} [label],
      .repetition .greedy 0 none
        [.group (some 2) {} {} [.literal 46, .group (some 3) {} {} [label]]],
      .anchor .lineEnd]

def isHostname (s : String) : Bool := s.length ≤ 255 && hostnamePattern.matchesStart s

/-- A number from 0 to 255 without leading zeros. -/
def isOctet (cs : List Char) : Bool :=
  !cs.isEmpty && cs.length ≤ 3 && cs.all Char.isDigit && (cs == ['0'] || cs.head? != some '0') &&
    cs.foldl (fun n c => n * 10 + (c.toNat - 48)) 0 ≤ 255

def ipv4Chars (cs : List Char) : Bool :=
  let parts := Text.splitAt '.' cs
  parts.length == 4 && parts.all isOctet

def isIpv4 (s : String) : Bool := ipv4Chars s.toList

def isHexDigit (c : Char) : Bool := c.isDigit || ('a' ≤ c && c ≤ 'f') || ('A' ≤ c && c ≤ 'F')

/-- Sixteen bits in hexadecimal. -/
def isHextet (cs : List Char) : Bool := !cs.isEmpty && cs.length ≤ 4 && cs.all isHexDigit

/-- The eight groups of an address, with one double colon for a run of zero groups. A colon at
either end must belong to the double one. -/
def hextetGroups (parts : List (List Char)) : Bool :=
  let inner := (parts.drop 1).dropLast
  match inner.findIdx? List.isEmpty with
  | none => parts.length == 8 && parts.all isHextet
  | some i =>
    let high := parts.take (i + 1)
    let low := parts.drop (i + 2)
    let high := if high == [[]] then [] else high
    let low := if low == [[]] then [] else low
    (inner.filter List.isEmpty).length == 1 && high.all isHextet && low.all isHextet &&
      high.length + low.length ≤ 7

/-- An address of eight groups, the last two of which may be written as four octets. -/
def ipv6Groups (cs : List Char) : Bool :=
  let parts := Text.splitAt ':' cs
  let last := parts.getLastD []
  let dotted := last.contains '.'
  let parts' := if dotted then parts.dropLast ++ [['0'], ['0']] else parts
  3 ≤ parts.length && (!dotted || ipv4Chars last) && parts'.length ≤ 9 && hextetGroups parts'

/-- An address with an optional zone after a percent sign. -/
def ipv6Chars (cs : List Char) : Bool :=
  !cs.contains '/' &&
    match Text.splitAt '%' cs with
    | [address] => ipv6Groups address
    | [address, zone] => !zone.isEmpty && ipv6Groups address
    | _ => false

def isIpv6 (s : String) : Bool := ipv6Chars s.toList

/-- Groups of 8, 4, 4, 4 and 12 hexadecimal digits in either case. -/
def uuidChars (cs : List Char) : Bool :=
  let parts := Text.splitAt '-' (dropFinalBreak cs)
  parts.map List.length == [8, 4, 4, 4, 12] && parts.all (·.all isHexDigit)

def isUuid (s : String) : Bool := uuidChars s.toList

end Conform.Format
