import JavaOutline.CommandLine.Options
import JavaOutline.Config.Load
import JavaOutline.Decl.Render
import JavaOutline.Project.Extract

/-! # The command line

Load the settings, build a library of the file or directory that is named, and print what was
asked for: the names of all types, one type, all sources, or else a summary. Warnings go to the
error output, informative log entries nowhere.

What the files hold is read with tools that are left open (`Toolkit`). -/

namespace JavaOutline.CommandLine

/-- The tools of a run: a front end for Java files, a reader of configuration files whose values are
of type `δ`, and checks of named values that may find something wrong (`ε`). -/
structure Toolkit (δ ε : Type) extends Frontend where
  read : ByteArray → Loaded δ
  /-- The value of a text. -/
  text : String → δ
  validate : List (String × δ) → Except ε Settings

/-- How a run ends. -/
inductive Ending (ε : Type) where
  | exit (code : Nat)
  | config (e : LoadError ε)
  | level (e : Settings.UnknownLevel)
  | fault (f : ProjectFault)
deriving Repr, Inhabited

/-- Why a run has ended early, where `report` says what is wrong with values. -/
def Ending.message {ε : Type} (report : ε → String) : Ending ε → String
  | .exit _ => ""
  | .config e => e.message report
  | .level e => e.message
  | .fault f => f.message

/-- What a run has written, and how it ends. -/
structure Outcome (ε : Type) where
  out : String := ""
  err : String := ""
  ending : Ending ε
deriving Repr, Inhabited

/-- The lines that warnings leave on the error output. -/
def warningLines (log : Log) : String :=
  String.join ((log.filter LogEntry.isWarning).map fun e => "WARNING:root:" ++ e.text ++ "\n")

/-- A library with the log of building it, and the fault that has stopped that. -/
structure Build where
  library : Library := {}
  log : Log := []
  fault : Option ProjectFault := none
deriving Repr, Inhabited

/-- Extract and register files one after the other. -/
def buildFiles (F : Frontend) (t : FileTree) (settings : Settings) :
    List Path → Library → Build
  | [], library => { library }
  | p :: ps, library =>
    match t.extractFile F settings p with
    | .error f => { library, fault := some f }
    | .ok (log, e) =>
      let (library, more) := match e.unit? with
        | some u => library.addUnit u
        | none => (library, [])
      let build := buildFiles F t settings ps library
      { build with log := log ++ more ++ build.log }

/-- The library of a file or of a directory. -/
def build (F : Frontend) (t : FileTree) (settings : Settings) (path : Path) : Build :=
  if t.isFile path then buildFiles F t settings [path] {}
  else match t.select settings path with
    | .error f => { fault := some f }
    | .ok ps =>
      let b := buildFiles F t settings ps {}
      { b with log := FileTree.foundEntry ps.length :: b.log }

/-- The summary of a library. -/
def summary (l : Library) : String :=
  toString l.units.length ++ " sources, " ++ toString l.packages.length ++ " packages, " ++
    toString l.types.length ++ " classes\n"

/-- The names of all types. -/
def listing (l : Library) : String :=
  String.join (l.types.map fun p => p.2.unit.qualifiedName p.2.type ++ "\n")

/-- All sources, each under its path. -/
def rendering (l : Library) (indent : String) : String :=
  String.join (l.units.map fun u =>
    "// " ++ u.path.getD "None" ++ "\n" ++ u.block indent ++ "\n")

/-- Print what was asked for. A type that is not there ends the run. -/
def print {ε : Type} (o : Options) (settings : Settings) (l : Library) (err : String) :
    Outcome ε :=
  let out := if o.listClasses then listing l else ""
  let wanted := o.className.filter (!·.isEmpty)
  match wanted, wanted.bind l.type? with
  | some name, none => { out, err := err ++ "Class not found: " ++ name ++ "\n", ending := .exit 1 }
  | _, type =>
    let out := match type with
      | some t => out ++ t.type.block settings.indent
      | none => out
    let out := if o.render then out ++ rendering l settings.indent else out
    let out := if o.listClasses || wanted.isSome || o.render then out else out ++ summary l
    { out, err, ending := .exit 0 }

/-- Load the settings that options ask for. -/
def loadSettings {δ ε : Type} (K : Toolkit δ ε) (t : FileTree) (o : Options) :
    Log × Except (LoadError ε) Settings :=
  Settings.load K.read K.validate t o.config [("log_level", o.logLevel.map K.text)]

/-- Run with options in a file tree. -/
def run {δ ε : Type} (K : Toolkit δ ε) (t : FileTree) (o : Options) : Outcome ε :=
  let (log, settings) := loadSettings K t o
  let err := warningLines log
  match settings with
  | .error e => { err, ending := .config e }
  | .ok settings => match settings.level with
    | .error e => { err, ending := .level e }
    | .ok _ =>
      let path := Path.ofString o.path
      if t.exists? path then
        let b := build K.toFrontend t settings path
        let err := err ++ warningLines b.log
        match b.fault with
        | some f => { err, ending := .fault f }
        | none => print o settings b.library err
      else
        { err := err ++ "Error: path not found: " ++ path.text ++ "\n", ending := .exit 2 }

end JavaOutline.CommandLine
