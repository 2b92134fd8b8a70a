import Conform.Format.Calendar
import Conform.Format.Host
import Conform.Format.Uri
import Conform.Format.Mailbox
import Conform.Fault

/-!
Named checks of strings, and those that are built in.
-/
namespace Conform

/-- A check of strings under a label. It may break down instead of answering. -/
structure Checker where
  label : String
  check : String → Except Breakdown Bool

namespace Checker

/-- The label of every entry that comes with the library. -/
def builtinLabel : String := "builtin"

def builtin (accepts : String → Bool) : Checker := ⟨builtinLabel, fun s => .ok (accepts s)⟩

def builtins : Listing Checker :=
  [("email", builtin Format.Mailbox.accepts), ("date-time", builtin Format.isDateTime),
    ("date", builtin Format.isDate), ("time", builtin Format.isTime), ("uri", builtin Format.isUri),
    ("hostname", builtin Format.isHostname), ("ipv4", builtin Format.isIpv4),
    ("ipv6", builtin Format.isIpv6), ("uuid", builtin Format.isUuid)]

end Checker

end Conform
