/-!
How unknown keywords and formats are taken, and how findings are laid out.
-/
namespace Conform

inductive Mode
  | strict
  | loose
  | warn
  deriving DecidableEq

namespace Mode

def name : Mode → String
  | .strict => "strict"
  | .loose => "loose"
  | .warn => "warn"

def ofName? (s : String) : Option Mode := [strict, loose, warn].find? (·.name == s)

end Mode

/-- The layouts of a report. -/
inductive Layout
  | simple
  | detailed
  | json
  deriving DecidableEq

namespace Layout

def name : Layout → String
  | .simple => "simple"
  | .detailed => "detailed"
  | .json => "json"

def ofName? (s : String) : Option Layout := [simple, detailed, json].find? (·.name == s)

end Layout

end Conform
