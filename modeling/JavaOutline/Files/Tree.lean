import JavaOutline.Files.Path

/-! # File trees

A file tree is a finite set of files, directories and symbolic links. The directory of work and
everything above it is taken to exist and to hold nothing else. Paths are followed one segment at a
time, and a link leads on from the directory that it stands in.

There are two ways to follow a path. To see what it leads to, everything has to be there, and each
segment but the last has to be a directory, also in front of `..`. To make it absolute, segments are
taken as they come where nothing is there. -/

namespace JavaOutline

/-- Files with their bytes, directories and links with their targets, by their absolute segments. -/
structure FileTree where
  /-- The directory of work. -/
  cwd : List String := []
  files : List (List String × ByteArray) := []
  directories : List (List String) := []
  links : List (List String × Path) := []
deriving Inhabited

instance decidableEqBytes : DecidableEq ByteArray := ByteArray.instDecidableEq

/-- What stands at a place. -/
inductive FileNode where
  | file (content : ByteArray)
  | directory
  | link (target : Path)
deriving DecidableEq, Inhabited

/-- Why segments lead nowhere. -/
structure Blocked where
  /-- A link leads back to itself; otherwise something is not there, or is no directory. -/
  byLoop : Bool
  /-- Where this is met, with the segments that were left. -/
  rest : List String
deriving DecidableEq, Repr, Inhabited

/-- A path that cannot be made absolute, because a link in it leads back to itself. -/
structure LinkLoop where
  path : Path
deriving DecidableEq, Repr, Inhabited

namespace FileTree

/-- Everything that a tree mentions, with the directory of work. -/
def entries (t : FileTree) : List (List String) :=
  t.cwd :: (t.files.map (·.1) ++ t.links.map (·.1) ++ t.directories)

/-- What stands at absolute segments without `..`. What has an entry below it is a directory. -/
def at? (t : FileTree) (d : List String) : Option FileNode :=
  match t.files.lookup d, t.links.lookup d with
  | some content, _ => some (.file content)
  | none, some target => some (.link target)
  | none, none => if t.entries.any (d.isPrefixOf ·) then some .directory else none

/-! ## Following segments -/

/-- Where the segments of a path are followed from, in a directory. -/
def startIn (d : List String) (p : Path) : List String :=
  match p.root with
  | .relative => d
  | _ => []

/-- Follow one segment from a directory. A link is followed by `jump`, unless it is one of those
that are being followed. -/
def stepFrom (t : FileTree) (strict : Bool)
    (jump : List (List String) → List String → List String → Except Blocked (List String))
    (opened : List (List String)) (d : List String) (s : String) :
    Except Blocked (List String) :=
  if strict && t.at? d ≠ some .directory then .error ⟨false, d ++ [s]⟩
  else if s = ".." then .ok d.dropLast
  else match t.at? (d ++ [s]) with
    | some (.link target) =>
      if d ++ [s] ∈ opened then .error ⟨true, d ++ [s]⟩
      else jump ((d ++ [s]) :: opened) (startIn d target) target.segments
    | _ => .ok (d ++ [s])

/-- Follow segments from a directory. -/
def followWith (t : FileTree) (strict : Bool)
    (jump : List (List String) → List String → List String → Except Blocked (List String))
    (opened : List (List String)) : List String → List String → Except Blocked (List String)
  | d, [] => if strict && t.at? d = none then .error ⟨false, d⟩ else .ok d
  | d, s :: ss => match t.stepFrom strict jump opened d s with
    | .error b => .error { b with rest := b.rest ++ ss }
    | .ok e => followWith t strict jump opened e ss

/-- Follow segments, where fewer than `n` links lead through one another. -/
def followWithin (t : FileTree) (strict : Bool) :
    Nat → List (List String) → List String → List String → Except Blocked (List String)
  | 0, _, d, ss => .error ⟨true, d ++ ss⟩
  | n + 1, opened, d, ss => t.followWith strict (followWithin t strict n) opened d ss

/-- Follow a path from the directory of work. No more links than there are lead through one
another. -/
def follow (t : FileTree) (strict : Bool) (p : Path) : Except Blocked (List String) :=
  t.followWithin strict (t.links.length + 1) [] (startIn t.cwd p) p.segments

/-! ## What paths lead to -/

/-- The place that a path leads to, if something is there. -/
def place? (t : FileTree) (p : Path) : Option (List String) := (t.follow true p).toOption

/-- What a path leads to. -/
def find? (t : FileTree) (p : Path) : Option FileNode := (t.place? p).bind t.at?

def exists? (t : FileTree) (p : Path) : Bool := (t.find? p).isSome

def isFile (t : FileTree) (p : Path) : Bool :=
  match t.find? p with
  | some (.file _) => true
  | _ => false

def isDirectory (t : FileTree) (p : Path) : Bool := t.find? p = some .directory

/-- The path of a place. -/
def pathOf (d : List String) : Path := { root := .slash, segments := d }

/-- A path made absolute, its links followed. Where a link leads back to itself, the path is left
as it is from there on, which is an error unless its `..` take the link away again. -/
def resolve (t : FileTree) (p : Path) : Except LinkLoop Path :=
  match t.follow false p with
  | .ok d => .ok (pathOf d)
  | .error b =>
    let q := pathOf (Path.collapse [] b.rest)
    match t.follow true q with
    | .error ⟨true, _⟩ => .error ⟨q⟩
    | _ => .ok q

/-! ## What lies below a directory -/

/-- All non-empty leading runs of segments. -/
def prefixesOf : List String → List (List String)
  | [] => []
  | s :: ss => [s] :: (prefixesOf ss).map (s :: ·)

/-- Everything strictly below absolute segments, as segments relative to them, in no particular
order and with repetitions. Links are not followed. -/
def below (t : FileTree) (d : List String) : List (List String) :=
  (t.entries.filter (d.isPrefixOf ·)).flatMap fun e => prefixesOf (e.drop d.length)

end FileTree

end JavaOutline
