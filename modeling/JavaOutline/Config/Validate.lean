import JavaOutline.Config.Datum
import JavaOutline.Config.Settings

/-! # Validation

Settings are made from named values: each setting that is named is checked on its own, all others
have their defaults, and names that are no setting are kept as extras. A number with a decimal point
stands for the nearest double. -/

namespace JavaOutline

/-- Settings, and the values under other names in the order they were given. -/
structure Configuration extends Settings where
  extras : List (String × Datum) := []
deriving Repr, Inhabited

/-- What is wrong with a value. -/
inductive IssueKind where
  | notText
  | notList
  | notBool
  /-- A number or text that stands for no truth value. -/
  | unreadableBool
deriving DecidableEq, Repr, Inhabited

/-- A value that does not fit, with the name of its setting and, in a list, its index. -/
structure Issue where
  setting : String
  index : Option Nat := none
  kind : IssueKind
deriving DecidableEq, Repr, Inhabited

namespace IssueKind

def message : IssueKind → String
  | .notText => "not a text"
  | .notList => "not a list"
  | .notBool => "not a truth value"
  | .unreadableBool => "stands for no truth value"

end IssueKind

/-- The place of an issue: its setting, and the index behind a dot. -/
def Issue.place (i : Issue) : String :=
  match i.index with
  | some n => i.setting ++ "." ++ toString n
  | none => i.setting

/-- What is wrong with some values, in one line. -/
def Issue.report (issues : List Issue) : String :=
  "; ".intercalate (issues.map fun i => i.place ++ ": " ++ i.kind.message)

/-! ## Numbers -/

/-- A double that is not negative: the number `digits * 2 ^ exponent`. -/
structure Double where
  digits : Nat
  exponent : Int
deriving DecidableEq, Repr, Inhabited

/-- The double nearest to `n / d`, and halfway between two the even one. It has 53 binary digits
where that does not take it below the least exponent. -/
def Double.ofRatio (n d : Nat) : Double :=
  let ratio (k : Int) : Nat × Nat :=
    if 0 ≤ k then (n, d * Nat.pow 2 k.toNat) else (n * Nat.pow 2 (-k).toNat, d)
  let k : Int := n.log2 - d.log2 - 53
  let k := if Nat.pow 2 53 * (ratio k).2 ≤ (ratio k).1 then k + 1 else k
  let exponent := max k (-1074)
  let (a, b) := ratio exponent
  let below := a / b
  let twice := 2 * (a % b)
  let digits := if b < twice ∨ twice = b ∧ below % 2 = 1 then below + 1 else below
  { digits, exponent }

/-- The whole number that a double is, if it is one. -/
def Double.whole? (x : Double) : Option Nat :=
  let unit := Nat.pow 2 (-x.exponent).toNat
  if x.digits % unit = 0 then some (x.digits / unit * Nat.pow 2 x.exponent.toNat) else none

/-- The double nearest to `m * 10 ^ e`, without its sign. -/
def Double.ofDecimal (m e : Int) : Double :=
  if 0 ≤ e then .ofRatio (m.natAbs * Nat.pow 10 e.toNat) 1
  else .ofRatio m.natAbs (Nat.pow 10 (-e).toNat)

namespace Settings

/-! ## Checking single values -/

/-- A value that fits, or what is wrong with it. -/
abbrev Checked := Except (List Issue)

def checkText (setting : String) : Datum → Checked String
  | .text s => .ok s
  | _ => .error [{ setting, kind := .notText }]

/-- The texts of a list; every item that is none is an issue of its own. -/
def checkItems (setting : String) : Nat → List Datum → Checked (List String)
  | _, [] => .ok []
  | n, .text s :: ds => (s :: ·) <$> checkItems setting (n + 1) ds
  | n, _ :: ds =>
    let issue : Issue := { setting, index := some n, kind := .notText }
    match checkItems setting (n + 1) ds with
    | .ok _ => .error [issue]
    | .error is => .error (issue :: is)

def checkTexts (setting : String) : Datum → Checked (List String)
  | .list ds => checkItems setting 0 ds
  | _ => .error [{ setting, kind := .notList }]

/-- Words for truth values, in small letters. -/
def trueWords : List String := ["1", "on", "t", "true", "y", "yes"]

def falseWords : List String := ["0", "off", "f", "false", "n", "no"]

/-- The truth value of a whole number: zero or one, or unreadable within 64 bits. -/
def boolOfInt (n : Int) : Except IssueKind Bool :=
  if n = 0 then .ok false
  else if n = 1 then .ok true
  else if -Int.pow 2 63 ≤ n ∧ n < Int.pow 2 63 then .error .unreadableBool
  else .error .notBool

/-- The truth value that a value stands for. -/
def boolOf : Datum → Except IssueKind Bool
  | .bool b => .ok b
  | .int n => boolOfInt n
  | .decimal m e => match (Double.ofDecimal m e).whole? with
    | some n => if n < Nat.pow 2 63 then boolOfInt (if m < 0 then -n else n) else .error .notBool
    | none => .error .notBool
  | .text s =>
    let w := s.map Char.toLower
    if trueWords.contains w then .ok true
    else if falseWords.contains w then .ok false
    else .error .unreadableBool
  | _ => .error .notBool

def checkBool (setting : String) (d : Datum) : Checked Bool :=
  match boolOf d with
  | .ok b => .ok b
  | .error kind => .error [{ setting, kind }]

/-! ## Making settings -/

/-- The names of the settings, in order. -/
def names : List String :=
  ["source_directories", "ignored_patterns", "encoding", "indent", "log_level",
   "respect_gitignore"]

/-- The value under a name, checked; the default if there is none. -/
def named (values : List (String × Datum)) (name : String) (check : String → Datum → Checked α)
    (default : α) : Checked α :=
  match values.lookup name with
  | some d => check name d
  | none => .ok default

/-- The issues of a check. -/
def issuesOf : Checked α → List Issue
  | .ok _ => []
  | .error is => is

/-- Settings from named values. The issues are those of all settings, in order. -/
def ofValues (values : List (String × Datum)) : Except (List Issue) Configuration :=
  let d : Settings := {}
  let directories := named values "source_directories" checkTexts d.sourceDirectories
  let patterns := named values "ignored_patterns" checkTexts d.ignoredPatterns
  let encoding := named values "encoding" checkText d.encoding
  let indent := named values "indent" checkText d.indent
  let level := named values "log_level" checkText d.logLevel
  let respect := named values "respect_gitignore" checkBool d.respectGitignore
  match directories, patterns, encoding, indent, level, respect with
  | .ok sourceDirectories, .ok ignoredPatterns, .ok encoding, .ok indent, .ok logLevel,
    .ok respectGitignore =>
    .ok { sourceDirectories, ignoredPatterns, encoding, indent, logLevel, respectGitignore
          extras := values.filter fun p => !names.contains p.1 }
  | _, _, _, _, _, _ =>
    .error (issuesOf directories ++ issuesOf patterns ++ issuesOf encoding ++
      issuesOf indent ++ issuesOf level ++ issuesOf respect)

end Settings

end JavaOutline
