import JavaOutline.Project.Session
import JavaOutline.Proofs.Files.Tree

/-! # What extracting files comes to

Whatever the front end, extracting paths one after the other is extracting each by itself and
keeping what comes out, up to the first that the work stops at (`FileTree.extractFiles_eq`).  It
stops at a Java file whose bytes the codec does not know what to do with, or whose text cannot be
encoded (`FileTree.extractFile_eq_error_iff`).  What a path comes to depends on the file that it
leads to and on no other (`FileTree.extractFile_write`).  Steps of a project leave its files and
settings alone. -/

namespace JavaOutline

variable {F : Frontend} {t : FileTree} {settings : Settings} {p : Path}

/-! ## Single files -/

/-- An entry of the log about a type whose name is taken. -/
def LogEntry.isDuplicate (e : LogEntry) : Bool :=
  e.isWarning && "Duplicate class ".toList.isPrefixOf e.text.toList

/-- The warnings of a log about types whose names are taken. -/
def duplicates (log : Log) : Log := log.filter LogEntry.isDuplicate

theorem duplicates_append (log log' : Log) :
    duplicates (log ++ log') = duplicates log ++ duplicates log' := List.filter_append ..

/-- What stops the work at a file with these bytes. -/
def Frontend.fault? (F : Frontend) (encoding : String) (bytes : ByteArray) : Option ProjectFault :=
  match F.decode encoding bytes with
  | .unknownEncoding => some (.unknownEncoding encoding)
  | .refused reason => some (.refused reason)
  | .malformed => none
  | .text s => match CodePoint.encode (unifyTextBreaks s) with
    | .error e => some (.unencodable e)
    | .ok _ => none

namespace FileTree

/-- The unit that a path is extracted to, if any comes out. -/
def unitAt? (F : Frontend) (t : FileTree) (settings : Settings) (p : Path) :
    Option CompilationUnit :=
  (t.extractFile F settings p).toOption.bind (·.2.unit?)

/-- What extracting a path says. -/
def logAt (F : Frontend) (t : FileTree) (settings : Settings) (p : Path) : Log :=
  ((t.extractFile F settings p).toOption.map (·.1)).getD []

/-- What stops the work at a path. -/
def faultAt? (F : Frontend) (t : FileTree) (settings : Settings) (p : Path) :
    Option ProjectFault :=
  match t.extractFile F settings p with
  | .error f => some f
  | .ok _ => none

theorem unitAt?_eq {log : Log} {e : Extracted} (h : t.extractFile F settings p = .ok (log, e)) :
    t.unitAt? F settings p = e.unit? := by
  rw [unitAt?, h]
  rfl

theorem logAt_eq {log : Log} {e : Extracted} (h : t.extractFile F settings p = .ok (log, e)) :
    t.logAt F settings p = log := by
  rw [logAt, h]
  rfl

theorem faultAt?_eq_some_iff {f : ProjectFault} :
    t.faultAt? F settings p = some f ↔ t.extractFile F settings p = .error f := by
  rw [faultAt?]
  cases t.extractFile F settings p with
  | error f' =>
    exact ⟨fun h ↦ congrArg _ (Option.some.inj h), fun h ↦ congrArg _ (Except.error.inj h)⟩
  | ok r => exact iff_of_false nofun nofun

theorem faultAt?_of_ok {r : Log × Extracted} (h : t.extractFile F settings p = .ok r) :
    t.faultAt? F settings p = none := by
  rw [faultAt?, h]

/-- What a path can come to, with the log of it. -/
inductive Yields (t : FileTree) (p : Path) : Log → Extracted → Prop
  | skipped (h : ¬ (t.exists? p = true ∧ p.suffix = ".java")) : Yields t p [] .skipped
  | failed (h : t.exists? p = true ∧ p.suffix = ".java") : Yields t p [failureWarning p] .failed
  | unit (h : t.exists? p = true ∧ p.suffix = ".java") {log : Log} (u : CompilationUnit)
      (hlog : log = [] ∨ log = [errorWarning p]) : Yields t p log (.unit u)

theorem exists?_of_find? {n : FileNode} (h : t.find? p = some n) : t.exists? p = true := by
  rw [exists?, h]
  rfl

theorem resolve_of_find? {n : FileNode} (h : t.find? p = some n) : Succeeds (t.resolve p) := by
  obtain ⟨d, hd, -⟩ := Option.bind_eq_some_iff.1 h
  exact ⟨_, resolve_of_place? hd⟩

/-- A text is outlined unless it cannot be encoded. -/
theorem outline_yields (h : t.exists? p = true ∧ p.suffix = ".java") (path : String)
    (s : List CodePoint) :
    match CodePoint.encode s with
    | .error e => outline F p path s = .error (.unencodable e)
    | .ok _ => ∃ log e, outline F p path s = .ok (log, e) ∧ t.Yields p log e := by
  cases hs : CodePoint.encode s with
  | error e =>
    have hparse : ParsedText.ofText F.parse s = .error e := by
      rw [ParsedText.ofText, hs]
      rfl
    simp only [outline, hparse]
  | ok text =>
    have hparse : ParsedText.ofText F.parse s = .ok (F.parse text) := by
      rw [ParsedText.ofText, hs]
      rfl
    simp only [outline, hparse, CompilationUnit.ofText, hs]
    cases CompilationUnit.ofTree text (F.parse text).root (some path) with
    | error e => exact ⟨_, _, rfl, .failed h⟩
    | ok u =>
      refine ⟨_, _, rfl, .unit h u ?_⟩
      cases (F.parse text).hasError with
      | true => exact .inr rfl
      | false => exact .inl rfl

/-- A Java file comes to something unless the work stops at its bytes. -/
theorem extractFile_of_file (F : Frontend) (settings : Settings) {bytes : ByteArray}
    (hp : t.find? p = some (.file bytes)) (hs : p.suffix = ".java") :
    match F.fault? settings.encoding bytes with
    | some f => t.extractFile F settings p = .error f
    | none => ∃ log e, t.extractFile F settings p = .ok (log, e) ∧ t.Yields p log e := by
  have h : t.exists? p = true ∧ p.suffix = ".java" := ⟨exists?_of_find? hp, hs⟩
  obtain ⟨path, hpath⟩ := resolve_of_find? hp
  simp only [extractFile, hp, hs, ne_eq, not_true_eq_false, if_false, Frontend.fault?]
  cases F.decode settings.encoding bytes with
  | unknownEncoding => rfl
  | refused reason => rfl
  | malformed => exact ⟨_, _, rfl, .failed h⟩
  | text s =>
    have houtline := outline_yields (F := F) h path.text (unifyTextBreaks s)
    simp only [absolute_eq_ok_iff.2 hpath, bind_of_eq_ok rfl]
    cases hencode : CodePoint.encode (unifyTextBreaks s) with
    | error e =>
      rw [hencode] at houtline
      exact houtline
    | ok text =>
      rw [hencode] at houtline
      exact houtline

/-- Any other path comes to something. -/
theorem extractFile_of_not_file (F : Frontend) (settings : Settings)
    (h : ¬ ∃ bytes, t.find? p = some (.file bytes) ∧ p.suffix = ".java") :
    ∃ log e, t.extractFile F settings p = .ok (log, e) ∧ t.Yields p log e := by
  cases hp : t.find? p with
  | none =>
    refine ⟨_, _, by rw [extractFile, hp], .skipped fun hj ↦ ?_⟩
    rw [exists?, hp] at hj
    exact Bool.false_ne_true hj.1
  | some n =>
    by_cases hs : p.suffix = ".java"
    · have hj : t.exists? p = true ∧ p.suffix = ".java" := ⟨exists?_of_find? hp, hs⟩
      cases n with
      | file bytes => exact absurd ⟨bytes, hp, hs⟩ h
      | _ => exact ⟨_, _, by simp only [extractFile, hp, hs]; rfl, .failed hj⟩
    · have hskip : t.extractFile F settings p = .ok ([], .skipped) := by
        simp only [extractFile, hp, ne_eq, hs, not_false_eq_true, if_true]
      exact ⟨_, _, hskip, .skipped fun hj ↦ hs hj.2⟩

theorem yields_of_extractFile {log : Log} {e : Extracted}
    (h : t.extractFile F settings p = .ok (log, e)) : t.Yields p log e := by
  by_cases hj : ∃ bytes, t.find? p = some (.file bytes) ∧ p.suffix = ".java"
  · obtain ⟨bytes, hp, hs⟩ := hj
    have hextract := extractFile_of_file F settings hp hs
    cases hf : F.fault? settings.encoding bytes with
    | some f =>
      rw [hf, h] at hextract
      cases hextract
    | none =>
      rw [hf] at hextract
      obtain ⟨log', e', hok, hy⟩ := hextract
      cases h.symm.trans hok
      exact hy
  · obtain ⟨log', e', hok, hy⟩ := extractFile_of_not_file F settings hj
    cases h.symm.trans hok
    exact hy

theorem isDuplicate_failureWarning (p : Path) : (failureWarning p).isDuplicate = false := by
  rw [LogEntry.isDuplicate, failureWarning, LogEntry.text, String.toList_append]
  rfl

theorem isDuplicate_errorWarning (p : Path) : (errorWarning p).isDuplicate = false := by
  rw [LogEntry.isDuplicate, errorWarning, LogEntry.text, String.toList_append,
    String.toList_append]
  rfl

/-- Extracting a file never says that a name is taken. -/
theorem Yields.duplicates {log : Log} {e : Extracted} (h : t.Yields p log e) :
    duplicates log = [] := by
  refine List.filter_eq_nil_iff.2 fun x hx ↦ Bool.eq_false_iff.1 ?_
  cases h with
  | skipped => cases hx
  | failed =>
    rw [List.mem_singleton.1 hx]
    exact isDuplicate_failureWarning p
  | unit _ u hlog =>
    rcases hlog with rfl | rfl
    · cases hx
    · rw [List.mem_singleton.1 hx]
      exact isDuplicate_errorWarning p

/-- Those of some paths that come before the first at which the work stops. -/
def reached (F : Frontend) (t : FileTree) (settings : Settings) (ps : List Path) : List Path :=
  ps.takeWhile fun p ↦ (t.faultAt? F settings p).isNone

theorem reached_cons_of_ok {r : Log × Extracted} (h : t.extractFile F settings p = .ok r)
    (ps : List Path) : t.reached F settings (p :: ps) = p :: t.reached F settings ps := by
  rw [reached, List.takeWhile_cons_of_pos]
  · rfl
  · rw [faultAt?_of_ok h]
    rfl

theorem reached_cons_of_error {f : ProjectFault} (h : t.extractFile F settings p = .error f)
    (ps : List Path) : t.reached F settings (p :: ps) = [] := by
  rw [reached, List.takeWhile_cons_of_neg]
  rw [faultAt?_eq_some_iff.2 h]
  exact Bool.false_ne_true

/-- If the work stops nowhere, all paths are reached. -/
theorem reached_eq_self {ps : List Path} (h : ps.findSome? (t.faultAt? F settings) = none) :
    t.reached F settings ps = ps := by
  rw [reached, List.takeWhile_eq_self_iff]
  intro p hp
  rw [List.findSome?_eq_none_iff.1 h p hp]
  rfl

theorem extractFiles_cons {log : Log} {e : Extracted}
    (h : t.extractFile F settings p = .ok (log, e)) (ps : List Path) (tally : Tally) :
    t.extractFiles F settings (p :: ps) tally =
      { t.extractFiles F settings ps (e.count tally) with
        log := log ++ (t.extractFiles F settings ps (e.count tally)).log
        units := e.unit?.toList ++ (t.extractFiles F settings ps (e.count tally)).units } := by
  rw [extractFiles, h]

theorem filterMap_unitAt?_cons (F : Frontend) (t : FileTree) (settings : Settings) (p : Path)
    (ps : List Path) : (p :: ps).filterMap (t.unitAt? F settings) =
      (t.unitAt? F settings p).toList ++ ps.filterMap (t.unitAt? F settings) := by
  rw [List.filterMap_cons]
  cases t.unitAt? F settings p <;> rfl

/-- A run over several files keeps what comes out of each that it reaches, and stops at the
first at which the work stops. -/
theorem extractFiles_eq (F : Frontend) (t : FileTree) (settings : Settings) (ps : List Path)
    (tally : Tally) :
    (t.extractFiles F settings ps tally).fault = ps.findSome? (t.faultAt? F settings) ∧
      (t.extractFiles F settings ps tally).units =
        (t.reached F settings ps).filterMap (t.unitAt? F settings) ∧
      (t.extractFiles F settings ps tally).log =
        (t.reached F settings ps).flatMap (t.logAt F settings) := by
  induction ps generalizing tally with
  | nil => exact ⟨rfl, rfl, rfl⟩
  | cons p ps ih =>
    cases h : t.extractFile F settings p with
    | error f =>
      rw [extractFiles, h, reached_cons_of_error h, List.findSome?_cons,
        faultAt?_eq_some_iff.2 h]
      exact ⟨rfl, rfl, rfl⟩
    | ok r =>
      obtain ⟨log, e⟩ := r
      obtain ⟨hfault, hunits, hlog⟩ := ih (e.count tally)
      rw [extractFiles_cons h, reached_cons_of_ok h, List.findSome?_cons, faultAt?_of_ok h,
        filterMap_unitAt?_cons, unitAt?_eq h, List.flatMap_cons, logAt_eq h]
      dsimp only
      rw [hunits, hlog]
      exact ⟨hfault, rfl, rfl⟩

theorem duplicates_logAt (F : Frontend) (t : FileTree) (settings : Settings) (p : Path) :
    duplicates (t.logAt F settings p) = [] := by
  rw [logAt]
  cases h : t.extractFile F settings p with
  | error f => rfl
  | ok r => exact (yields_of_extractFile h).duplicates

/-- Extracting files never says that a name is taken. -/
theorem duplicates_extractFiles (F : Frontend) (t : FileTree) (settings : Settings)
    (ps : List Path) (tally : Tally) :
    duplicates (t.extractFiles F settings ps tally).log = [] := by
  rw [(extractFiles_eq F t settings ps tally).2.2]
  induction t.reached F settings ps with
  | nil => rfl
  | cons p ps ih => rw [List.flatMap_cons, duplicates_append, duplicates_logAt, ih]; rfl

/-- Extracting a directory is extracting the files that are selected. -/
theorem extractDirectory_of_select {dir : Path} (hdir : Succeeds (t.resolve dir)) {ps : List Path}
    (h : t.select settings dir = .ok ps) (tally : Tally) :
    t.extractDirectory F settings dir tally =
      { t.extractFiles F settings ps tally with
        log := foundEntry ps.length :: (t.extractFiles F settings ps tally).log } := by
  obtain ⟨q, hq⟩ := hdir
  rw [extractDirectory, absolute_eq_ok_iff.2 hq, bind_of_eq_ok rfl, h]

theorem extractDirectory_of_select_error {dir : Path} (hdir : Succeeds (t.resolve dir))
    {f : ProjectFault} (h : t.select settings dir = .error f) (tally : Tally) :
    t.extractDirectory F settings dir tally = { tally, fault := some f } := by
  obtain ⟨q, hq⟩ := hdir
  rw [extractDirectory, absolute_eq_ok_iff.2 hq, bind_of_eq_ok rfl, h]

end FileTree

/-! ## Projects -/

namespace Project

/-- The project after some steps. -/
def after (F : Frontend) (p : Project) (ss : List Step) : Project :=
  ss.foldl (fun p s ↦ (p.step F s).1) p

theorem run_cons (F : Frontend) (p : Project) (s : Step) (ss : List Step) :
    p.run F (s :: ss) = (p.step F s).2 :: (p.step F s).1.run F ss := rfl

theorem after_cons (F : Frontend) (p : Project) (s : Step) (ss : List Step) :
    p.after F (s :: ss) = (p.step F s).1.after F ss := rfl

/-- A step may count and register; it leaves files and settings alone. -/
structure SameFiles (p p' : Project) : Prop where
  tree : p'.tree = p.tree
  settings : p'.settings = p.settings
  counting : p'.counting = p.counting

theorem SameFiles.refl (p : Project) : SameFiles p p := ⟨rfl, rfl, rfl⟩

theorem sameFiles_keepTally (p : Project) (t : Tally) : SameFiles p (p.keepTally t) := by
  rw [keepTally]
  split <;> exact ⟨rfl, rfl, rfl⟩

theorem sameFiles_step (F : Frontend) (p : Project) (s : Step) : SameFiles p (p.step F s).1 := by
  cases s with
  | extractFile path =>
    rw [step]
    split
    · exact .refl p
    · exact sameFiles_keepTally p _
  | extractDirectory dir => exact sameFiles_keepTally p _
  | outlineFile path =>
    rw [step]
    split
    · split <;> exact .refl p
    · exact .refl p
  | outlineDirectory dir =>
    rw [step]
    split <;> exact .refl p
  | addFile path =>
    rw [step]
    split
    · exact .refl p
    · exact .refl p
    · exact ⟨rfl, rfl, rfl⟩
  | addDirectory dir =>
    rw [step]
    dsimp only
    split
    · exact .refl p
    · exact ⟨rfl, rfl, rfl⟩
  | _ => exact .refl p

end Project

end JavaOutline
