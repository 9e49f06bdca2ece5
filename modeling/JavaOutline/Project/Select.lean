import JavaOutline.Config.Settings
import JavaOutline.Files.Decode
import JavaOutline.Files.Ignore
import JavaOutline.Files.Tree
import JavaOutline.Text.Quoted

/-! # Selecting source files

The Java files below a directory, in the order of their paths, without those that are ignored: by
the configured patterns, which are relative to that directory, or by the ignore files in it and in
all directories above it. Links below the directory are listed and not followed; a file is matched
as it is found once its links are followed. -/

namespace JavaOutline

/-- What stops work on a project. -/
inductive ProjectFault where
  /-- No encoding has the configured name. -/
  | unknownEncoding (name : String)
  /-- The codec of the configured encoding gives up on a file. -/
  | refused (reason : String)
  /-- A file decodes to a text that cannot be encoded. -/
  | unencodable (e : LoneSurrogate)
  /-- An ignore file is no UTF-8. -/
  | undecodable
  | linkLoop (e : LinkLoop)
  | noFile (path : String)
  | noDirectory (path : String)
deriving DecidableEq, Repr, Inhabited

namespace ProjectFault

def message : ProjectFault → String
  | .unknownEncoding name => "unknown encoding: " ++ name
  | .refused reason => reason
  | .unencodable e => e.message
  | .undecodable => "malformed text"
  | .linkLoop e => "Symlink loop from " ++ Text.quoted e.path.text
  | .noFile path => "File not found: " ++ path
  | .noDirectory path => "Directory not found: " ++ path

end ProjectFault

namespace FileTree

open Text

/-- The name of an ignore file. -/
def ignoreFile : String := ".gitignore"

/-- The patterns of an ignore file: its lines without blanks around them, but not those that are
empty or start with a number sign. -/
def patternsOf (s : String) : List String :=
  (((lines s.toList).map trim).filter fun l => !l.isEmpty && l.head? != some '#').map String.ofList

/-- The patterns of the ignore file in a directory, each with the directory. -/
def patternsIn (t : FileTree) (d : List String) : Except ProjectFault (List (String × Path)) :=
  match t.find? (pathOf (d ++ [ignoreFile])) with
  | some (.file bytes) => match utf8Text? bytes with
    | some s => .ok ((patternsOf s).map (·, pathOf d))
    | none => .error .undecodable
  | _ => .ok []

/-- A directory and all above it, without the root. -/
def ancestors (d : List String) : List (List String) := (prefixesOf d).reverse

/-- A path made absolute. -/
def absolute (t : FileTree) (p : Path) : Except ProjectFault Path :=
  match t.resolve p with
  | .ok q => .ok q
  | .error e => .error (.linkLoop e)

/-- The patterns that hold in a directory: its own come first, then those from above. -/
def ignorePatterns (t : FileTree) (dir : Path) : Except ProjectFault (List (String × Path)) := do
  let root ← t.absolute dir
  List.flatten <$> (ancestors root.segments).mapM t.patternsIn

/-- Put segments in their place among sorted ones, once. -/
def insertSegments (s : List String) : List (List String) → List (List String)
  | [] => [s]
  | r :: rs =>
    if s = r then r :: rs
    else if Path.segmentsLe s r then s :: r :: rs
    else r :: insertSegments s rs

/-- Whether the last segment is the name of a Java file. -/
def isJavaName (segments : List String) : Bool :=
  (segments.getLast?.getD "").toList.reverse.take 5 == ".java".toList.reverse

/-- All paths below a directory that are named like a Java file, in order. -/
def javaFiles (t : FileTree) (dir : Path) : List Path :=
  match t.place? dir with
  | some d =>
    if t.at? d = some .directory then
      (((t.below d).filter isJavaName).foldr insertSegments []).map fun s =>
        { dir with segments := dir.segments ++ s }
    else []
  | none => []

/-- A file found in a directory, unless it is ignored. -/
def keep? (t : FileTree) (settings : Settings) (dir : Path) (patterns : List (String × Path))
    (f : Path) : Except ProjectFault (Option Path) := do
  let file ← t.absolute f
  let root ← t.absolute dir
  pure (if isIgnored file root patterns settings.ignoredPatterns then none else some f)

/-- The Java files below a directory that are not ignored, in order. -/
def select (t : FileTree) (settings : Settings) (dir : Path) :
    Except ProjectFault (List Path) := do
  let patterns ← if settings.respectGitignore then t.ignorePatterns dir else pure []
  (t.javaFiles dir).filterMapM (t.keep? settings dir patterns)

end FileTree

end JavaOutline
