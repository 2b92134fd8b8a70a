import Conform.Pattern.Matcher
import Conform.Text.Split

/-!
Dates and times of day. A pattern gives the shape, in which digits may be of any script; the fields
are then read as numbers, and where the leading digit of one decides the range it has to be an
ASCII digit.
-/
namespace Conform.Format

/-- So many digits of any script. -/
def digits (n : Nat) : Pattern.Piece :=
  .repetition .greedy n (some n) [.set false [.category .digit false]]

/-- Three fields of digits with a separator between them, the first with a width of its own. -/
def fieldShape (separator : Char) (width : Nat) : List Pattern.Piece :=
  [digits width, .literal separator.toNat, digits 2, .literal separator.toNat, digits 2]

def datePattern : Pattern where
  source := "^\\d\x7b4\x7d-\\d\x7b2\x7d-\\d\x7b2\x7d$"
  flags := { unicode := true }
  pieces := .anchor .lineStart :: fieldShape '-' 4 ++ [.anchor .lineEnd]

def timePattern : Pattern where
  source := "^\\d\x7b2\x7d:\\d\x7b2\x7d:\\d\x7b2\x7d$"
  flags := { unicode := true }
  pieces := .anchor .lineStart :: fieldShape ':' 2 ++ [.anchor .lineEnd]

/-- A point and digits. -/
def fractionShape : List Pattern.Piece :=
  [.group (some 3) {} {}
    [.literal '.'.toNat, .repetition .greedy 1 none [.set false [.category .digit false]]]]

/-- A letter, or a sign with hours and minutes. -/
def zoneShape : Pattern.Piece :=
  .branch [[.set false [.literal 'Z'.toNat, .literal 'z'.toNat]],
    [.set false [.literal '+'.toNat, .literal '-'.toNat], .group (some 5) {} {} [digits 2],
      .literal ':'.toNat, .group (some 6) {} {} [digits 2]]]

/-- A date, a time with or without a fraction of a second, and a zone. The groups are the date, the
time, the fraction, the zone, and its hours and minutes. -/
def dateTimePattern : Pattern where
  source := "^(?P<date>\\d\x7b4\x7d-\\d\x7b2\x7d-\\d\x7b2\x7d)[Tt]" ++
    "(?P<time>\\d\x7b2\x7d:\\d\x7b2\x7d:\\d\x7b2\x7d)(\\.\\d+)?" ++
    "(?P<offset>[Zz]|[+-](?P<oh>\\d\x7b2\x7d):(?P<om>\\d\x7b2\x7d))$"
  flags := { unicode := true }
  pieces :=
    [.anchor .lineStart, .group (some 1) {} {} (fieldShape '-' 4),
      .set false [.literal 'T'.toNat, .literal 't'.toNat],
      .group (some 2) {} {} (fieldShape ':' 2), .repetition .greedy 0 (some 1) fractionShape,
      .group (some 4) {} {} [zoneShape], .anchor .lineEnd]

def isLeapYear (year : Nat) : Bool := year % 4 == 0 && (year % 100 != 0 || year % 400 == 0)

def daysInMonth (year month : Nat) : Nat :=
  if month = 2 then (if isLeapYear year then 29 else 28)
  else if month = 4 || month = 6 || month = 9 || month = 11 then 30
  else 31

/-- The number that digits of any script write. -/
def number? (cs : List Char) : Option Nat :=
  cs.foldlM (fun n c => (Text.digitValue? c).map (10 * n + ·)) 0

/-- The value of an ASCII digit in a range of them. -/
def digitIn? (low high c : Char) : Option Nat :=
  if low ≤ c && c ≤ high then some (c.toNat - 48) else none

/-- A month from `1` to `12`, in one or two digits. -/
def month? : List Char → Option Nat
  | [a, b] =>
    if a = '1' then (digitIn? '0' '2' b).map (10 + ·)
    else if a = '0' then digitIn? '1' '9' b
    else none
  | [b] => digitIn? '1' '9' b
  | _ => none

/-- A day of the month from `1` to `31`, in one or two digits or with a blank for the first. -/
def day? : List Char → Option Nat
  | [a, b] =>
    if a = '3' then (digitIn? '0' '1' b).map (30 + ·)
    else if a = '2' then (Text.digitValue? b).map (20 + ·)
    else if a = '1' then (Text.digitValue? b).map (10 + ·)
    else if a = '0' ∨ a = ' ' then digitIn? '1' '9' b
    else none
  | [b] => digitIn? '1' '9' b
  | _ => none

/-- An hour below 24, in one or two digits. -/
def hour? : List Char → Option Nat
  | [a, b] =>
    if a = '2' then (digitIn? '0' '3' b).map (20 + ·)
    else if a = '1' then (Text.digitValue? b).map (10 + ·)
    else if a = '0' then Text.digitValue? b
    else none
  | [b] => Text.digitValue? b
  | _ => none

/-- A minute below 60, in one or two digits. -/
def minute? : List Char → Option Nat
  | [a, b] => do return (← digitIn? '0' '5' a) * 10 + (← Text.digitValue? b)
  | [b] => Text.digitValue? b
  | _ => none

/-- A second, leap seconds included. -/
def second? : List Char → Option Nat
  | [a, b] => if a = '6' then (digitIn? '0' '1' b).map (60 + ·) else minute? [a, b]
  | cs => minute? cs

/-- Whether the parts of a date name a day of the calendar, whose first year is 1. -/
def isCalendarDay (year month day : List Char) : Bool :=
  ((do
    let y ← number? year
    let m ← month? month
    let d ← day? day
    return year.length == 4 && 1 ≤ y && d ≤ daysInMonth y m) : Option Bool).getD false

/-- Whether the parts of a time name a moment of a day, which has no leap seconds. -/
def isMoment (hour minute second : List Char) : Bool :=
  (hour? hour).isSome && (minute? minute).isSome && (second? second).any (· < 60)

/-- Whether a text has the shape of a pattern and its three fields pass a check. -/
def hasFields (pattern : Pattern) (separator : Char)
    (check : List Char → List Char → List Char → Bool) (s : String) : Bool :=
  pattern.matchesStart s &&
    match Text.splitAt separator s.toList with
    | [a, b, c] => check a b c
    | _ => false

def isDate : String → Bool := hasFields datePattern '-' isCalendarDay

def isTime : String → Bool := hasFields timePattern ':' isMoment

/-- A zone without hours is a letter. -/
def isDateTime (s : String) : Bool :=
  match dateTimePattern.matchStart? s with
  | none => false
  | some m =>
    let below (limit n : Nat) : Bool :=
      ((m.held? s n).bind fun t => number? t.toList).any (· < limit)
    (m.held? s 1).any isDate && (m.held? s 2).any isTime &&
      ((m.held? s 5).isNone || below 24 5 && below 60 6)

end Conform.Format
