/-! # Log entries -/

namespace JavaOutline

/-- An entry of the log. -/
inductive LogEntry where
  | info (text : String)
  | warning (text : String)
deriving DecidableEq, Repr, Inhabited

/-- Entries in the order they were made. -/
abbrev Log := List LogEntry

namespace LogEntry

def text : LogEntry → String
  | .info t => t
  | .warning t => t

def isWarning : LogEntry → Bool
  | .info _ => false
  | .warning _ => true

end LogEntry

end JavaOutline
