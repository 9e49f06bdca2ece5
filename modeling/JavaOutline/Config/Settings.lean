import JavaOutline.Text.Case

/-! # Settings

The settings of a run, with their defaults. -/

namespace JavaOutline

/-- The settings of a run. -/
structure Settings where
  sourceDirectories : List String := ["."]
  ignoredPatterns : List String :=
    ["target", "build", "out", ".git", ".idea", ".gradle", "node_modules"]
  encoding : String := "utf-8"
  indent : String := "    "
  logLevel : String := "INFO"
  respectGitignore : Bool := true
deriving DecidableEq, Repr, Inhabited

namespace Settings

/-! ## Levels -/

/-- The levels of log entries that have a name. -/
def levels : List (String × Nat) :=
  [("CRITICAL", 50), ("FATAL", 50), ("ERROR", 40), ("WARN", 30), ("WARNING", 30), ("INFO", 20),
   ("DEBUG", 10), ("NOTSET", 0)]

/-- A level without a number. -/
structure UnknownLevel where
  level : String
deriving DecidableEq, Repr, Inhabited

def UnknownLevel.message (e : UnknownLevel) : String := "Unknown log level: " ++ e.level

/-- The number of the level, whatever the case of its letters. -/
def level (s : Settings) : Except UnknownLevel Nat :=
  match levels.lookup (Text.capitals s.logLevel) with
  | some n => .ok n
  | none => .error ⟨s.logLevel⟩

end Settings

end JavaOutline
