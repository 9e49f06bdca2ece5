import JavaOutline.Project.Select

/-! # The file system of the host

What a run can ask for is read into a file tree beforehand. A link goes into the tree with the
place that it leads to in the end; one that leads nowhere is left out. -/

namespace JavaOutline.FileTree

/-- The file system's name of a place. -/
def placeName (d : List String) : String := "/" ++ "/".intercalate d

def isHostDirectory (d : List String) : IO Bool := do ((← IO.currentDir) / placeName d).isDir

/-- A tree with nothing but the directory of work. -/
def ofHost : IO FileTree := do
  return { cwd := (Path.ofString (← IO.currentDir).toString).segments }

/-- A file with its bytes, if it can be read. -/
def addFile (d : List String) (t : FileTree) : IO FileTree := do
  try
    let bytes ← IO.FS.readBinFile (placeName d)
    return { t with files := (d, bytes) :: t.files }
  catch _ => return t

/-- The place that a link leads to, if it leads anywhere. -/
def linkEnd? (d : List String) : IO (Option (List String)) := do
  try
    let file := (← IO.currentDir) / placeName d
    if (← file.symlinkMetadata).type != .symlink then return none
    return some (Path.ofString (← IO.FS.realPath (placeName d)).toString).segments
  catch _ => return none

/-- Follow segments from a directory, and keep the links that are met. -/
def addLinks : List String → List String → FileTree → IO (List String × FileTree)
  | d, [], t => return (d, t)
  | d, s :: ss, t => do
    if s == ".." then addLinks d.dropLast ss t
    else match ← linkEnd? (d ++ [s]) with
      | some e => addLinks e ss { t with links := (d ++ [s], pathOf e) :: t.links }
      | none => addLinks (d ++ [s]) ss t

/-- Follow a path, and keep the links that are met. -/
def addPath (p : Path) (t : FileTree) : IO (List String × FileTree) :=
  addLinks (startIn t.cwd p) p.segments t

/-- What a name in a directory leads to: a file with its bytes, or a directory by itself. -/
def addEntry (d : List String) (name : String) (t : FileTree) : IO FileTree := do
  let (e, t) ← addLinks d [name] t
  if ← isHostDirectory e then return { t with directories := e :: t.directories }
  else addFile e t

/-- Files that are read where they are met: Java files and ignore files. -/
def isRead (name : String) : Bool := isJavaName [name] || name == ignoreFile

/-- A directory with everything below it. -/
partial def addDirectory (d : List String) (t : FileTree) : IO FileTree := do
  let mut t := { t with directories := d :: t.directories }
  for entry in ← ((← IO.currentDir) / placeName d).readDir do
    if (← entry.path.symlinkMetadata).type == .dir then
      t ← addDirectory (d ++ [entry.fileName]) t
    else if isRead entry.fileName then t ← addEntry d entry.fileName t
  return t

/-- What a path leads to, with everything below it and the ignore files above it. -/
def addProject (p : Path) (t : FileTree) : IO FileTree := do
  let (d, tree) ← addPath p t
  let mut t := tree
  for dir in ancestors d do
    t ← addEntry dir ignoreFile t
  if ← isHostDirectory d then addDirectory d t else addFile d t

end JavaOutline.FileTree
