import JavaOutline.Files.Glob
import JavaOutline.Files.Path

/-! # Ignore patterns

A pattern is read relative to the directory it was written for. A pattern with a slash in front
or inside is matched with every leading run of a file's segments, any other with each segment; a
slash behind restricts it to directories. -/

namespace JavaOutline

open Text

/-- A pattern taken apart. -/
structure IgnorePattern where
  /-- What the segments are matched with; no slash in front or behind. -/
  glob : List Char
  /-- Matched with leading runs of segments rather than with single ones. -/
  anchored : Bool
  /-- Only directories match. -/
  directoryOnly : Bool
deriving DecidableEq, Repr, Inhabited

namespace IgnorePattern

/-- Read a pattern; blank, negated and all-slash patterns match nothing. Backslashes are
slashes. -/
def ofText? (s : List Char) : Option IgnorePattern :=
  let s := (trim s).map fun c => if c = '\\' then '/' else c
  let body := s.dropWhile (· = '/')
  let glob := dropEndWhile (· = '/') body
  if s.isEmpty || s.head? == some '!' || glob.isEmpty then none
  else some
    { glob
      anchored := s.head? == some '/' || glob.contains '/'
      directoryOnly := body.getLast? == some '/' }

/-- The non-empty leading runs of a list, shortest first. -/
def leadingRuns : List α → List (List α)
  | [] => []
  | a :: r => [a] :: (leadingRuns r).map (a :: ·)

/-- Whether the pattern matches a file with these segments below the pattern's directory, where
`stands g t` says that the glob `g` stands for the text `t`. -/
def matchesSegments (stands : List Char → List Char → Bool) (p : IgnorePattern)
    (segments : List (List Char)) : Bool :=
  let parts := if p.directoryOnly then segments.dropLast else segments
  if p.anchored then (leadingRuns parts).any fun run => stands p.glob (joinWith ['/'] run)
  else parts.any (stands p.glob)

end IgnorePattern

/-- The segments a file is matched by: a directory seen from itself has the one segment `.`. -/
def matchedSegments (below : List String) : List (List Char) :=
  match below with
  | [] => [['.']]
  | s :: ss => (s :: ss).map String.toList

/-- Whether `file` is ignored by `pattern` written for `dir`, for any meaning of globs; files
outside `dir` are not. -/
def isMatchedUnder (stands : List Char → List Char → Bool) (file : Path) (pattern : String)
    (dir : Path) : Bool :=
  match IgnorePattern.ofText? pattern.toList, dir.below? file with
  | some p, some below => p.matchesSegments stands (matchedSegments below)
  | _, _ => false

/-- Whether `file` is ignored by `pattern` written for `dir`. -/
def isMatchedBy (file : Path) (pattern : String) (dir : Path) : Bool :=
  isMatchedUnder Glob.matches file pattern dir

/-- Whether an absolute file is ignored by a pattern of an ignore file, each with the directory
it was written for, or by a pattern configured for the root directory. -/
def isIgnored (file root : Path) (patterns : List (String × Path)) (configured : List String) :
    Bool :=
  patterns.any (fun p => isMatchedBy file p.1 p.2) || configured.any (isMatchedBy file · root)

end JavaOutline
