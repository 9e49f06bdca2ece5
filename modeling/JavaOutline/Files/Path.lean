import JavaOutline.Text.Lines

/-! # Paths

A path is a root and a list of segments. Reading drops empty and `.` segments and keeps `..`;
exactly two slashes in front name a root of their own. -/

namespace JavaOutline

open Text

/-- Where a path starts. -/
inductive Root where
  | relative
  | slash
  | doubleSlash
deriving DecidableEq, Repr, Inhabited

/-- A path; no segment is empty or `.`. -/
structure Path where
  root : Root := .relative
  segments : List String := []
deriving DecidableEq, Repr, Inhabited

namespace Path

/-- The root that a text names. -/
def rootOf : List Char → Root
  | '/' :: '/' :: '/' :: _ => .slash
  | '/' :: '/' :: _ => .doubleSlash
  | '/' :: _ => .slash
  | _ => .relative

/-- Segments that name something. -/
def isSegment (s : List Char) : Bool := !s.isEmpty && s != ['.']

/-- Read a path. -/
def ofString (s : String) : Path :=
  { root := rootOf s.toList
    segments := ((splitAt '/' s.toList).filter isSegment).map String.ofList }

def Root.text : Root → String
  | .relative => ""
  | .slash => "/"
  | .doubleSlash => "//"

/-- The path's text; a path with nothing to show is `.`. -/
def text (p : Path) : String :=
  match p.root, p.segments with
  | .relative, [] => "."
  | r, ss => Root.text r ++ "/".intercalate ss

/-- The second path as seen from the first; an absolute path stays as it is. -/
def join (p q : Path) : Path :=
  match q.root with
  | .relative => { p with segments := p.segments ++ q.segments }
  | _ => q

/-- Take `..` segments literally: each removes the segment before it, and at the root nothing. -/
def collapse : List String → List String → List String
  | done, [] => done.reverse
  | done, s :: ss => if s = ".." then collapse done.tail ss else collapse (s :: done) ss

/-- The directory that holds the path; a root holds itself. -/
def parent (p : Path) : Path := { p with segments := p.segments.dropLast }

/-- The segments of `p` below `dir`, if `p` is `dir` or below it. -/
def below? (dir p : Path) : Option (List String) :=
  if dir.root = p.root ∧ dir.segments.isPrefixOf p.segments then
    some (p.segments.drop dir.segments.length)
  else none

/-- The last segment. -/
def name (p : Path) : String := p.segments.getLast?.getD ""

/-- The last segment from its last dot on, if that dot neither starts nor ends it. -/
def suffix (p : Path) : String :=
  let r := p.name.toList.reverse
  let ext := r.takeWhile (· ≠ '.')
  let stem := (r.drop (ext.length + 1))
  if ext.length < r.length ∧ ext ≠ [] ∧ stem ≠ [] then String.ofList ('.' :: ext.reverse) else ""

/-- Segments in order, a path before those below it. -/
def segmentsLe : List String → List String → Bool
  | [], _ => true
  | _ :: _, [] => false
  | a :: as, b :: bs => if a = b then segmentsLe as bs else decide (a < b)

end Path

end JavaOutline
