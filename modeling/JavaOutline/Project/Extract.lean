import JavaOutline.Log
import JavaOutline.Project.Select
import JavaOutline.Registry
import JavaOutline.Tree.Outline

/-! # Extracting files

The outlines of the Java files of a project. A file that cannot be read or is malformed is passed
over with a warning; one with syntax errors is outlined as far as it goes, with a warning. A tally
counts the files that were tried, those that failed and the types that were found.

How bytes are decoded and texts are parsed is left open (`Frontend`). -/

namespace JavaOutline

/-- What makes a syntax tree of the bytes of a file. -/
structure Frontend where
  decode : Codecs
  parse : String → ParsedText

/-- Counts of extracted files. -/
structure Tally where
  files : Nat := 0
  failed : Nat := 0
  types : Nat := 0
deriving DecidableEq, Repr, Inhabited

/-- What became of a path. -/
inductive Extracted where
  /-- There is no Java file. -/
  | skipped
  /-- The file cannot be read or decoded. -/
  | failed
  | unit (u : CompilationUnit)
deriving Repr, Inhabited

namespace Extracted

def unit? : Extracted → Option CompilationUnit
  | .unit u => some u
  | _ => none

/-- Count what became of a path. -/
def count (e : Extracted) (t : Tally) : Tally :=
  match e with
  | .skipped => t
  | .failed => { t with files := t.files + 1, failed := t.failed + 1 }
  | .unit u => { t with files := t.files + 1, types := t.types + u.types.length }

end Extracted

namespace FileTree

/-- The warning about a file that is passed over. -/
def failureWarning (p : Path) : LogEntry := .warning ("   Warning: Error processing " ++ p.text)

/-- The warning about a file with syntax errors. -/
def errorWarning (p : Path) : LogEntry :=
  .warning ("   Warning: Syntax errors in " ++ p.text ++ "; declarations may be incomplete")

/-- Outline the text of the file at an absolute path, which goes by the name `p` in the log. -/
def outline (F : Frontend) (p : Path) (path : String) (s : List CodePoint) :
    Except ProjectFault (Log × Extracted) :=
  match ParsedText.ofText F.parse s with
  | .error e => .error (.unencodable e)
  | .ok parsed => match CompilationUnit.ofText s parsed.root (some path) with
    | .ok u => .ok (if parsed.hasError then [errorWarning p] else [], .unit u)
    | .error (.cut _) => .ok ([failureWarning p], .failed)
    | .error (.unencodable e) => .error (.unencodable e)

/-- Extract one file. -/
def extractFile (F : Frontend) (t : FileTree) (settings : Settings) (p : Path) :
    Except ProjectFault (Log × Extracted) :=
  match t.find? p with
  | none => .ok ([], .skipped)
  | some node =>
    if p.suffix ≠ ".java" then .ok ([], .skipped)
    else match node with
      | .file bytes => match F.decode settings.encoding bytes with
        | .unknownEncoding => .error (.unknownEncoding settings.encoding)
        | .refused reason => .error (.refused reason)
        | .malformed => .ok ([failureWarning p], .failed)
        | .text s => do
          let q ← t.absolute p
          outline F p q.text (unifyTextBreaks s)
      | _ => .ok ([failureWarning p], .failed)

/-- What a run over several files has come to: its log, its tally and its units, and the fault
that has stopped it, if any. -/
structure Run where
  log : Log := []
  tally : Tally
  units : List CompilationUnit := []
  fault : Option ProjectFault := none
deriving Repr, Inhabited

/-- Extract files one after the other, until a fault. -/
def extractFiles (F : Frontend) (t : FileTree) (settings : Settings) : List Path → Tally → Run
  | [], tally => { tally }
  | p :: ps, tally =>
    match t.extractFile F settings p with
    | .error f => { tally, fault := some f }
    | .ok (log, e) =>
      let run := t.extractFiles F settings ps (e.count tally)
      { run with log := log ++ run.log, units := e.unit?.toList ++ run.units }

/-- The log entry about the number of files found. -/
def foundEntry (n : Nat) : LogEntry :=
  .info ("Found " ++ toString n ++ " Java files to analyze (after filtering ignored paths).")

/-- Extract all files of a directory that are not ignored. -/
def extractDirectory (F : Frontend) (t : FileTree) (settings : Settings) (dir : Path)
    (tally : Tally) : Run :=
  match t.absolute dir >>= fun _ => t.select settings dir with
  | .error f => { tally, fault := some f }
  | .ok ps =>
    let run := t.extractFiles F settings ps tally
    { run with log := foundEntry ps.length :: run.log }

end FileTree

/-! ## Libraries -/

/-- A type with the unit it comes from. -/
structure RegisteredType where
  unit : CompilationUnit
  type : TypeDecl
deriving Repr, Inhabited

/-- A registry of extracted units. -/
abbrev Library := Registry CompilationUnit RegisteredType

namespace Library

/-- The types of a unit under their qualified names. -/
def typesOf (u : CompilationUnit) : List (String × RegisteredType) :=
  u.types.map fun t => (u.qualifiedName t, { unit := u, type := t })

/-- Register a unit; types whose name is taken are warned about. -/
def addUnit (l : Library) (u : CompilationUnit) : Library × Log :=
  let (l, duplicates) := Registry.register l u u.packageName (typesOf u)
  (l, duplicates.map fun n => .warning (duplicateWarning n u.path))

/-- Register units one after the other. -/
def addUnits (l : Library) : List CompilationUnit → Library × Log
  | [] => (l, [])
  | u :: us =>
    let (l, log) := l.addUnit u
    let (l, more) := addUnits l us
    (l, log ++ more)

/-- The log entry about the size of a library. -/
def registeredEntry (l : Library) (n : Nat) : LogEntry :=
  .info ("Registered " ++ toString n ++ " sources, " ++ toString l.types.length ++
    " classes in total")

end Library

end JavaOutline
