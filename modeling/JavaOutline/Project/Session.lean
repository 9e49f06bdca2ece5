import JavaOutline.Project.Extract

/-! # Working on a project

Steps over a file tree that share one tally and one library, with any front end. -/

namespace JavaOutline

/-- A file tree with settings, and what the steps so far have come to. -/
structure Project where
  tree : FileTree
  settings : Settings
  /-- Whether extracted files are counted. -/
  counting : Bool := true
  tally : Tally := {}
  library : Library := {}
deriving Inhabited

namespace Project

/-- A step; paths are given as text. -/
inductive Step where
  | ignorePatterns (dir : String)
  | select (dir : String)
  | extractFile (path : String)
  | extractDirectory (dir : String)
  | tally
  /-- Like `extractFile`, but the file has to exist and is not counted. -/
  | outlineFile (path : String)
  /-- Like `extractDirectory`, but the directory has to exist and nothing is counted. -/
  | outlineDirectory (dir : String)
  | addFile (path : String)
  | addDirectory (dir : String)
  | library
  | type (name : String)
deriving Repr, Inhabited

/-- What a step answers. -/
inductive Answer where
  | patterns (ps : List (String × Path))
  | paths (ps : List Path)
  /-- A unit in full. -/
  | outline (u : Option CompilationUnit)
  /-- A unit in brief. -/
  | brief (u : Option CompilationUnit)
  | briefs (us : List CompilationUnit)
  | tally (t : Tally)
  | library (l : Library)
  | type (t : Option RegisteredType)
deriving Repr, Inhabited

/-- A step's log with its answer or fault. -/
structure Reply where
  log : Log := []
  result : Except ProjectFault Answer
deriving Repr, Inhabited

/-- Keep a tally, if files are counted. -/
def keepTally (p : Project) (t : Tally) : Project := if p.counting then { p with tally := t } else p

/-- Answer with the units of a run, unless it has a fault. -/
def ofRun (r : FileTree.Run) : Reply :=
  { log := r.log
    result := match r.fault with
      | some f => .error f
      | none => .ok (.briefs r.units) }

variable (F : Frontend)

/-- Extract one file without counting it. -/
def single (p : Project) (path : String) : Except ProjectFault (Log × Option CompilationUnit) :=
  (p.tree.extractFile F p.settings (Path.ofString path)).map fun r => (r.1, r.2.unit?)

/-- Run one step. -/
def step (p : Project) : Step → Project × Reply
  | .ignorePatterns dir =>
    (p, { result := .patterns <$> p.tree.ignorePatterns (Path.ofString dir) })
  | .select dir => (p, { result := .paths <$> p.tree.select p.settings (Path.ofString dir) })
  | .extractFile path =>
    match p.tree.extractFile F p.settings (Path.ofString path) with
    | .error f => (p, { result := .error f })
    | .ok (log, e) =>
      (p.keepTally (e.count p.tally), { log, result := .ok (.outline e.unit?) })
  | .extractDirectory dir =>
    let run := p.tree.extractDirectory F p.settings (Path.ofString dir) p.tally
    (p.keepTally run.tally, ofRun run)
  | .tally => (p, { result := .ok (.tally p.tally) })
  | .outlineFile path =>
    if p.tree.exists? (Path.ofString path) then
      match p.single F path with
      | .error f => (p, { result := .error f })
      | .ok (log, u) => (p, { log, result := .ok (.brief u) })
    else (p, { result := .error (.noFile path) })
  | .outlineDirectory dir =>
    if p.tree.exists? (Path.ofString dir) then
      (p, ofRun (p.tree.extractDirectory F p.settings (Path.ofString dir) {}))
    else (p, { result := .error (.noDirectory dir) })
  | .addFile path =>
    match p.single F path with
    | .error f => (p, { result := .error f })
    | .ok (log, none) => (p, { log, result := .ok (.brief none) })
    | .ok (log, some u) =>
      let (library, more) := p.library.addUnit u
      ({ p with library }, { log := log ++ more, result := .ok (.brief (some u)) })
  | .addDirectory dir =>
    let run := p.tree.extractDirectory F p.settings (Path.ofString dir) {}
    match run.fault with
    | some f => (p, { log := run.log, result := .error f })
    | none =>
      let (library, more) := p.library.addUnits run.units
      ({ p with library },
        { log := run.log ++ more ++ [library.registeredEntry run.units.length]
          result := .ok (.briefs run.units) })
  | .library => (p, { result := .ok (.library p.library) })
  | .type name => (p, { result := .ok (.type (p.library.type? name)) })

/-- Run steps one after the other, also behind a fault. -/
def run (p : Project) : List Step → List Reply
  | [] => []
  | s :: ss =>
    let (p, r) := p.step F s
    r :: run p ss

end Project

end JavaOutline
