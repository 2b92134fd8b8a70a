import Conform.Text.Quoted
import Conform.Pattern.Syntax

/-!
What may be wrong with a pattern, and where.
-/
namespace Conform.Pattern

inductive Problem
  | badEscapeAtEnd
  | incompleteEscape (text : String)
  | badEscape (text : String)
  | octalOutOfRange (text : String)
  | missingBrace
  | missingName (what : String)
  | unterminatedName (terminator : Char)
  | undefinedCharacter (name : String)
  | openGroup
  | groupOfSameLookbehind
  | invalidReference (group : Nat)
  | unterminatedSet
  | badRange (low high : String)
  | nothingToRepeat
  | multipleRepeat
  | repeatOrder
  | unexpectedEnd
  | badGroupName (name : String)
  | unknownGroup (name : String)
  | unknownExtension (text : String)
  | unterminatedComment
  | unterminatedGroup
  | badGroupNumber
  | thirdBranch
  | lateFlags
  | redefinedGroup (name : String) (group earlier : Nat)
  | localeFlag
  | incompatibleFlags
  | missingFlagEnd
  | unknownFlag
  | templateFlagOn
  | missingFlag
  | alphabetFlagOff
  | missingColon
  | templateFlagOff
  | flagOnAndOff
  | unbalanced
  | tooFarBehind
  | variableBehind
  | templateRepeat (operator : String)
  deriving DecidableEq

def Problem.text : Problem → String
  | .badEscapeAtEnd => "bad escape (end of pattern)"
  | .incompleteEscape text => "incomplete escape " ++ text
  | .badEscape text => "bad escape " ++ text
  | .octalOutOfRange text => "octal escape value " ++ text ++ " outside of range 0-0o377"
  | .missingBrace => "missing \x7b"
  | .missingName what => "missing " ++ what
  | .unterminatedName terminator => s!"missing {terminator}, unterminated name"
  | .undefinedCharacter name => "undefined character name " ++ Text.quoted name
  | .openGroup => "cannot refer to an open group"
  | .groupOfSameLookbehind => "cannot refer to group defined in the same lookbehind subpattern"
  | .invalidReference group => s!"invalid group reference {group}"
  | .unterminatedSet => "unterminated character set"
  | .badRange low high => "bad character range " ++ low ++ "-" ++ high
  | .nothingToRepeat => "nothing to repeat"
  | .multipleRepeat => "multiple repeat"
  | .repeatOrder => "min repeat greater than max repeat"
  | .unexpectedEnd => "unexpected end of pattern"
  | .badGroupName name => "bad character in group name " ++ Text.quoted name
  | .unknownGroup name => "unknown group name " ++ Text.quoted name
  | .unknownExtension text => "unknown extension " ++ text
  | .unterminatedComment => "missing ), unterminated comment"
  | .unterminatedGroup => "missing ), unterminated subpattern"
  | .badGroupNumber => "bad group number"
  | .thirdBranch => "conditional backref with more than two branches"
  | .lateFlags => "global flags not at the start of the expression"
  | .redefinedGroup name group earlier =>
    s!"redefinition of group name {Text.quoted name} as group {group}; was group {earlier}"
  | .localeFlag => "bad inline flags: cannot use 'L' flag with a str pattern"
  | .incompatibleFlags => "bad inline flags: flags 'a', 'u' and 'L' are incompatible"
  | .missingFlagEnd => "missing -, : or )"
  | .unknownFlag => "unknown flag"
  | .templateFlagOn => "bad inline flags: cannot turn on global flag"
  | .missingFlag => "missing flag"
  | .alphabetFlagOff => "bad inline flags: cannot turn off flags 'a', 'u' and 'L'"
  | .missingColon => "missing :"
  | .templateFlagOff => "bad inline flags: cannot turn off global flag"
  | .flagOnAndOff => "bad inline flags: flag turned on and off"
  | .unbalanced => "unbalanced parenthesis"
  | .tooFarBehind => "looks too much behind"
  | .variableBehind => "look-behind requires fixed-width pattern"
  | .templateRepeat operator => "internal: unsupported template operator " ++ operator

/-- Why a pattern cannot be used. A problem of syntax has a place, unless it shows only when the
whole pattern is known; the other two kinds are not problems of syntax. -/
inductive Rejection
  | malformed (problem : Problem) (position : Option Nat)
  | repetitionTooLarge
  | conflictingAlphabets
  deriving DecidableEq

/-- The text of a rejection. A pattern of several lines gets line and column too. -/
def Rejection.message (pattern : String) : Rejection → String
  | .malformed problem none => problem.text
  | .malformed problem (some p) =>
    let cs := pattern.toList
    let base := s!"{problem.text} at position {p}"
    if cs.contains '\n' then
      let before := cs.take p
      let line := before.count '\n' + 1
      let column := (before.reverse.takeWhile (· != '\n')).length + 1
      s!"{base} (line {line}, column {column})"
    else base
  | .repetitionTooLarge => "the repetition number is too large"
  | .conflictingAlphabets => "ASCII and UNICODE flags are incompatible"

end Conform.Pattern
