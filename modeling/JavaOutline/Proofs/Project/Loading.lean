import JavaOutline.Program
import JavaOutline.Proofs.Files.Selection
import JavaOutline.Proofs.Project.Extract
import JavaOutline.Proofs.Registry

/-! # Three ways to load a directory

The command line registers each unit as soon as it is extracted, adding a directory registers all
units once all files have been extracted, and a user can add the selected files one by one.  All
three come to the same library and the same warnings about names that are taken, or stop with the
same fault (`Project.loads_agree`), because each is registering what comes out of the selected
files, in order. -/

namespace JavaOutline

variable {F : Frontend} {t : FileTree} {settings : Settings}

/-! ## Registering in order -/

namespace Library

theorem isDuplicate_duplicateWarning (name : String) (path : Option String) :
    (LogEntry.warning (duplicateWarning name path)).isDuplicate = true := by
  have hstart (a b c d e : String) : a.toList.isPrefixOf (a ++ b ++ c ++ d ++ e).toList = true := by
    simp only [String.toList_append, List.append_assoc, List.isPrefixOf_iff_prefix]
    exact List.prefix_append _ _
  rw [LogEntry.isDuplicate, LogEntry.isWarning, LogEntry.text, Bool.true_and]
  unfold duplicateWarning
  -- The texts need not be looked into.
  with_reducible exact hstart _ _ _ _ _

/-- Registering says nothing else than that names are taken. -/
theorem duplicates_addUnit (l : Library) (u : CompilationUnit) :
    duplicates (l.addUnit u).2 = (l.addUnit u).2 := by
  refine List.filter_eq_self.2 fun e he ↦ ?_
  obtain ⟨n, -, rfl⟩ := List.mem_map.1 he
  exact isDuplicate_duplicateWarning n u.path

theorem addUnits_cons (l : Library) (u : CompilationUnit) (us : List CompilationUnit) :
    l.addUnits (u :: us) =
      (((l.addUnit u).1.addUnits us).1, (l.addUnit u).2 ++ ((l.addUnit u).1.addUnits us).2) := rfl

theorem addUnits_append (l : Library) (us vs : List CompilationUnit) :
    l.addUnits (us ++ vs) =
      (((l.addUnits us).1.addUnits vs).1,
        (l.addUnits us).2 ++ ((l.addUnits us).1.addUnits vs).2) := by
  induction us generalizing l with
  | nil => rfl
  | cons u us ih =>
    rw [List.cons_append, addUnits_cons, ih, addUnits_cons, List.append_assoc]

theorem duplicates_addUnits (l : Library) (us : List CompilationUnit) :
    duplicates (l.addUnits us).2 = (l.addUnits us).2 := by
  induction us generalizing l with
  | nil => rfl
  | cons u us ih => rw [addUnits_cons, duplicates_append, duplicates_addUnit, ih]

/-- Every type is registered under its qualified name. -/
theorem name_of_mem_addUnits {l : Library} {us : List CompilationUnit}
    (hl : ∀ c ∈ l.types, c.1 = c.2.unit.qualifiedName c.2.type) :
    ∀ c ∈ (l.addUnits us).1.types, c.1 = c.2.unit.qualifiedName c.2.type := by
  induction us generalizing l with
  | nil => exact hl
  | cons u us ih =>
    refine ih fun c hc ↦ ?_
    rcases Registry.mem_types_register hc with hc | hc
    · exact hl c hc
    · obtain ⟨type, -, rfl⟩ := List.mem_map.1 hc
      rfl

end Library

/-! ## The command line -/

namespace CommandLine

/-- Building registers what comes out of each file that is reached. -/
theorem buildFiles_eq (F : Frontend) (t : FileTree) (settings : Settings) (ps : List Path)
    (l : Library) :
    (buildFiles F t settings ps l).fault = ps.findSome? (t.faultAt? F settings) ∧
      (buildFiles F t settings ps l).library =
        (l.addUnits ((t.reached F settings ps).filterMap (t.unitAt? F settings))).1 ∧
      duplicates (buildFiles F t settings ps l).log =
        (l.addUnits ((t.reached F settings ps).filterMap (t.unitAt? F settings))).2 := by
  induction ps generalizing l with
  | nil => exact ⟨rfl, rfl, rfl⟩
  | cons p ps ih =>
    cases h : t.extractFile F settings p with
    | error f =>
      rw [buildFiles, h, FileTree.reached_cons_of_error h, List.findSome?_cons,
        FileTree.faultAt?_eq_some_iff.2 h]
      exact ⟨rfl, rfl, rfl⟩
    | ok r =>
      obtain ⟨log, e⟩ := r
      have hlog := (FileTree.yields_of_extractFile h).duplicates
      rw [FileTree.reached_cons_of_ok h, FileTree.filterMap_unitAt?_cons, FileTree.unitAt?_eq h,
        List.findSome?_cons, FileTree.faultAt?_of_ok h, buildFiles, h]
      dsimp only
      cases e.unit? with
      | none =>
        obtain ⟨hfault, hlibrary, hrest⟩ := ih l
        refine ⟨hfault, hlibrary, ?_⟩
        dsimp only
        rw [duplicates_append, duplicates_append, hlog, hrest]
        rfl
      | some u =>
        obtain ⟨hfault, hlibrary, hrest⟩ := ih (l.addUnit u).1
        rw [Option.toList_some, List.singleton_append, Library.addUnits_cons]
        refine ⟨hfault, hlibrary, ?_⟩
        dsimp only
        rw [duplicates_append, duplicates_append, hlog, hrest, Library.duplicates_addUnit]
        rfl

theorem isFile_of_isDirectory {dir : Path} (hdir : t.isDirectory dir = true) :
    t.isFile dir = false := by
  rw [FileTree.isFile, of_decide_eq_true hdir]

/-- Without a selection nothing is built. -/
theorem fault_build_of_select_error {dir : Path} (hdir : t.isDirectory dir = true)
    {f : ProjectFault} (h : t.select settings dir = .error f) :
    (build F t settings dir).fault = some f := by
  rw [build, isFile_of_isDirectory hdir, h]
  rfl

theorem build_eq {dir : Path} (hdir : t.isDirectory dir = true) {qs : List Path}
    (hqs : t.select settings dir = .ok qs) :
    build F t settings dir =
      { buildFiles F t settings qs {} with
        log := FileTree.foundEntry qs.length :: (buildFiles F t settings qs {}).log } := by
  rw [build, isFile_of_isDirectory hdir, hqs]
  rfl

/-- A run that only lists prints the names of all types of the library that has been built. -/
theorem run_listing {δ ε : Type} {K : Toolkit δ ε} {o : Options} (hlist : o.listClasses = true)
    (hclass : o.className = none) (hrender : o.render = false)
    (hload : (loadSettings K t o).2 = .ok settings) (hlevel : Succeeds settings.level)
    (hdir : t.exists? (Path.ofString o.path) = true)
    (hfault : (build K.toFrontend t settings (Path.ofString o.path)).fault = none) :
    (run K t o).out = listing (build K.toFrontend t settings (Path.ofString o.path)).library ∧
      (run K t o).ending = .exit 0 := by
  obtain ⟨level, hlevel⟩ := hlevel
  have hrun : run K t o = print o settings
      (build K.toFrontend t settings (Path.ofString o.path)).library
      (warningLines (loadSettings K t o).1 ++
        warningLines (build K.toFrontend t settings (Path.ofString o.path)).log) := by
    rw [run]
    simp only [hload, hlevel, hdir, hfault, if_true]
  rw [hrun, print]
  simp [hlist, hclass, hrender]

end CommandLine

/-! ## Projects -/

namespace Project

/-- What a reply has stopped at. -/
def Reply.fault? (r : Reply) : Option ProjectFault :=
  match r.result with
  | .error f => some f
  | .ok _ => none

variable {p : Project}

/-- Adding a file registers what comes out of it. -/
theorem step_addFile (F : Frontend) (p : Project) {q : Path} (hq : Path.ofString q.text = q) :
    (p.step F (.addFile q.text)).2.fault? = p.tree.faultAt? F p.settings q ∧
      (p.step F (.addFile q.text)).1.library =
        (p.library.addUnits (p.tree.unitAt? F p.settings q).toList).1 ∧
      duplicates (p.step F (.addFile q.text)).2.log =
        (p.library.addUnits (p.tree.unitAt? F p.settings q).toList).2 := by
  cases h : p.tree.extractFile F p.settings q with
  | error f =>
    have hsingle : p.single F q.text = .error f := by
      rw [single, hq, h]
      rfl
    rw [step, hsingle, FileTree.faultAt?_eq_some_iff.2 h, FileTree.unitAt?, h]
    exact ⟨rfl, rfl, rfl⟩
  | ok r =>
    obtain ⟨log, e⟩ := r
    have hlog := (FileTree.yields_of_extractFile h).duplicates
    have hsingle : p.single F q.text = .ok (log, e.unit?) := by
      rw [single, hq, h]
      rfl
    rw [step, hsingle, FileTree.faultAt?_of_ok h, FileTree.unitAt?_eq h]
    cases e.unit? with
    | none => exact ⟨rfl, rfl, hlog⟩
    | some u =>
      refine ⟨rfl, rfl, ?_⟩
      dsimp only
      rw [duplicates_append, hlog, Library.duplicates_addUnit, Option.toList_some,
        Library.addUnits_cons]
      exact (List.append_nil _).symm

/-- Adding files one by one registers what comes out of each. -/
theorem after_addFiles (F : Frontend) (p : Project) {qs : List Path}
    (hqs : ∀ q ∈ qs, Path.ofString q.text = q) :
    (p.run F (qs.map fun q ↦ .addFile q.text)).findSome? Reply.fault? =
        qs.findSome? (p.tree.faultAt? F p.settings) ∧
      (p.after F (qs.map fun q ↦ .addFile q.text)).library =
        (p.library.addUnits (qs.filterMap (p.tree.unitAt? F p.settings))).1 ∧
      duplicates ((p.run F (qs.map fun q ↦ .addFile q.text)).flatMap (·.log)) =
        (p.library.addUnits (qs.filterMap (p.tree.unitAt? F p.settings))).2 := by
  induction qs generalizing p with
  | nil => exact ⟨rfl, rfl, rfl⟩
  | cons q qs ih =>
    obtain ⟨hq, hqs⟩ := List.forall_mem_cons.1 hqs
    have hsame := p.sameFiles_step F (.addFile q.text)
    obtain ⟨hfault, hlibrary, hlog⟩ := step_addFile F p hq
    obtain ⟨ihfault, ihlibrary, ihlog⟩ := ih (p.step F (.addFile q.text)).1 hqs
    rw [hsame.tree, hsame.settings] at ihfault ihlibrary ihlog
    rw [List.map_cons, run_cons, after_cons, FileTree.filterMap_unitAt?_cons,
      Library.addUnits_append, ← hlibrary]
    refine ⟨?_, ihlibrary, ?_⟩
    · rw [List.findSome?_cons, List.findSome?_cons, hfault, ihfault]
    · rw [List.flatMap_cons, duplicates_append, hlog, ihlog]

/-- Adding a directory registers what comes out of the files that are selected, once none of them
has stopped the work. -/
theorem step_addDirectory (F : Frontend) (p : Project) {dir : String}
    (hdir : Succeeds (p.tree.resolve (Path.ofString dir))) {qs : List Path}
    (hqs : p.tree.select p.settings (Path.ofString dir) = .ok qs) :
    (p.step F (.addDirectory dir)).2.fault? = qs.findSome? (p.tree.faultAt? F p.settings) ∧
      (qs.findSome? (p.tree.faultAt? F p.settings) = none →
        (p.step F (.addDirectory dir)).2.result =
            .ok (.briefs (qs.filterMap (p.tree.unitAt? F p.settings))) ∧
          (p.step F (.addDirectory dir)).1.library =
            (p.library.addUnits (qs.filterMap (p.tree.unitAt? F p.settings))).1 ∧
          duplicates (p.step F (.addDirectory dir)).2.log =
            (p.library.addUnits (qs.filterMap (p.tree.unitAt? F p.settings))).2) := by
  obtain ⟨hfault, hunits, -⟩ := FileTree.extractFiles_eq F p.tree p.settings qs {}
  have hlog := FileTree.duplicates_extractFiles F p.tree p.settings qs {}
  have hinfo (log : Log) (text : String) : duplicates (.info text :: log) = duplicates log := rfl
  rw [step, FileTree.extractDirectory_of_select hdir hqs, hfault]
  cases hnone : qs.findSome? (p.tree.faultAt? F p.settings) with
  | some f => exact ⟨rfl, fun h ↦ absurd h (Option.some_ne_none f)⟩
  | none =>
    rw [FileTree.reached_eq_self hnone] at hunits
    dsimp only
    rw [hunits]
    refine ⟨rfl, fun _ ↦ ⟨rfl, rfl, ?_⟩⟩
    rw [duplicates_append, duplicates_append, FileTree.foundEntry, hinfo, hlog,
      Library.duplicates_addUnits]
    exact List.append_nil _

/-- Where the ignore files that are asked for are text: if a file below cannot be made absolute, the
command line and adding the directory stop with the same fault, and there is no selection to add.
Otherwise there is one.  The command line, adding the directory and adding the selected files one by
one stop with the same fault, if with any.  And if with none, they come to the same library and the
same warnings about names that are taken; and the command line, asked to list the types, prints the
names under which they are registered, which are their qualified names. -/
theorem loads_agree {δ ε : Type} (K : CommandLine.Toolkit δ ε) {p : Project}
    (hp : p.library = {}) (ht : p.tree.WellFormed) {dir : String}
    (hdir : p.tree.isDirectory (Path.ofString dir) = true)
    (hi : p.settings.respectGitignore = true → p.tree.IgnoreFilesDecodeFor (Path.ofString dir)) :
    (∀ q ∈ p.tree.javaFiles (Path.ofString dir), ¬ Succeeds (p.tree.resolve q) →
      ∃ e, p.tree.select p.settings (Path.ofString dir) = .error (.linkLoop e) ∧
        (CommandLine.build K.toFrontend p.tree p.settings (Path.ofString dir)).fault =
          some (.linkLoop e) ∧
        (p.step K.toFrontend (.addDirectory dir)).2.fault? = some (.linkLoop e)) ∧
    ((∀ q ∈ p.tree.javaFiles (Path.ofString dir), Succeeds (p.tree.resolve q)) →
      ∃ (qs : List Path) (fault : Option ProjectFault),
        p.tree.select p.settings (Path.ofString dir) = .ok qs ∧
        fault = qs.findSome? (p.tree.faultAt? K.toFrontend p.settings) ∧
        (CommandLine.build K.toFrontend p.tree p.settings (Path.ofString dir)).fault = fault ∧
        (p.step K.toFrontend (.addDirectory dir)).2.fault? = fault ∧
        (p.run K.toFrontend (qs.map fun q ↦ .addFile q.text)).findSome? Reply.fault? = fault ∧
        (fault = none → ∃ (l : Library) (taken : Log),
          (∃ b, CommandLine.build K.toFrontend p.tree p.settings (Path.ofString dir) = b ∧
            b.library = l ∧ duplicates b.log = taken) ∧
          (∃ p' r, p.step K.toFrontend (.addDirectory dir) = (p', r) ∧
            r.result =
              .ok (.briefs (qs.filterMap (p.tree.unitAt? K.toFrontend p.settings))) ∧
            p'.library = l ∧ duplicates r.log = taken) ∧
          (∃ p' rs, p.after K.toFrontend (qs.map fun q ↦ .addFile q.text) = p' ∧
            p.run K.toFrontend (qs.map fun q ↦ .addFile q.text) = rs ∧
            p'.library = l ∧ duplicates (rs.flatMap (·.log)) = taken) ∧
          (∀ o : CommandLine.Options,
            o.path = dir → o.listClasses = true → o.className = none → o.render = false →
            (CommandLine.loadSettings K p.tree o).2 = .ok p.settings →
            Succeeds p.settings.level →
            (CommandLine.run K p.tree o).out = String.join (l.types.map fun c ↦ c.1 ++ "\n") ∧
              (CommandLine.run K p.tree o).ending = .exit 0) ∧
          ∀ c ∈ l.types, c.1 = c.2.unit.qualifiedName c.2.type)) := by
  obtain ⟨d, hd, -⟩ := FileTree.place?_of_isDirectory hdir
  have hresolve := FileTree.resolve_of_place? hd
  refine ⟨fun q hq hloop ↦ ?_, fun hl ↦ ?_⟩
  · obtain ⟨e, he⟩ := FileTree.select_of_linkLoop hresolve hi hq hloop
    refine ⟨e, he, CommandLine.fault_build_of_select_error hdir he, ?_⟩
    rw [step, FileTree.extractDirectory_of_select_error ⟨_, hresolve⟩ he]
    rfl
  obtain ⟨qs, hqs⟩ := (p.tree.select_succeeds_iff p.settings (Path.ofString dir)).2
    ⟨fun h ↦ (FileTree.ignorePatterns_succeeds_iff hresolve).2 (hi h), hl⟩
  have hbuild := CommandLine.build_eq (F := K.toFrontend) hdir hqs
  obtain ⟨hfault, hlibrary, hlog⟩ :=
    CommandLine.buildFiles_eq K.toFrontend p.tree p.settings qs {}
  obtain ⟨hdirectory, hadded⟩ := step_addDirectory K.toFrontend p ⟨_, hresolve⟩ hqs
  obtain ⟨hfiles, hafter⟩ := after_addFiles K.toFrontend p (ht.ofString_text hqs)
  refine ⟨qs, _, hqs, rfl, ?_, hdirectory, hfiles, fun hnone ↦ ?_⟩
  · rw [hbuild]
    exact hfault
  rw [FileTree.reached_eq_self hnone] at hlibrary hlog
  rw [hnone] at hfault
  rw [hp] at hafter
  have hadded := hadded hnone
  rw [hp] at hadded
  have hnames : ∀ c ∈ (Library.addUnits {}
      (qs.filterMap (p.tree.unitAt? K.toFrontend p.settings))).1.types,
      c.1 = c.2.unit.qualifiedName c.2.type :=
    Library.name_of_mem_addUnits fun _ hc ↦ absurd hc List.not_mem_nil
  refine ⟨_, _, ⟨_, hbuild, hlibrary, hlog⟩, ⟨_, _, rfl, hadded⟩, ⟨_, _, rfl, rfl, hafter⟩,
    ?_, hnames⟩
  rintro o rfl hlist hclass hrender hload hlevel
  have hexists : p.tree.exists? (Path.ofString o.path) = true :=
    FileTree.exists?_of_find? (of_decide_eq_true hdir)
  have hbuilt : (CommandLine.build K.toFrontend p.tree p.settings
      (Path.ofString o.path)).fault = none := by
    rw [hbuild]
    exact hfault
  obtain ⟨hout, hending⟩ :=
    CommandLine.run_listing hlist hclass hrender hload hlevel hexists hbuilt
  rw [hbuild] at hout
  dsimp only at hout
  rw [hout, hlibrary]
  exact ⟨congrArg String.join
    (List.map_congr_left fun c hc ↦ congrArg (· ++ "\n") (hnames c hc).symm), hending⟩

/-- A name is taken twice, one file is ignored and one is no text. -/
theorem loads_agree_taken : ∃ p : Project, p =
      { tree :=
          { cwd := ["w"]
            files := [
              (["w", "src", "B.java"], "package p; class A \x7b\x7d class B \x7b\x7d".toUTF8),
              (["w", "src", "A.java"], "package p; class A \x7b\x7d".toUTF8),
              (["w", "src", "skip", "C.java"], "class C \x7b\x7d".toUTF8),
              (["w", "src", "D.java"], ⟨#[255]⟩),
              (["w", ".gitignore"], "skip/\n".toUTF8)] }
        settings := {} } ∧
    ∃ l : Library, l.types.map (·.1) = ["p.A", "p.B"] ∧
      (CommandLine.build .own p.tree p.settings (Path.ofString "src")).library = l ∧
      (p.step .own (.addDirectory "src")).1.library = l ∧
      (∃ qs : List Path, qs.map (·.text) = ["src/A.java", "src/B.java", "src/D.java"] ∧
        (p.after .own (qs.map fun q ↦ .addFile q.text)).library = l) ∧
      (CommandLine.run .own p.tree { path := "src", listClasses := true }).out =
        String.join (l.types.map fun c ↦ c.1 ++ "\n") := by
  refine ⟨_, rfl, ?_⟩
  generalize hp : Project.mk _ _ _ _ _ = p
  have ht : p.tree.WellFormed := by rw [← hp]; exact ⟨by decide, by decide, by decide⟩
  have hdir : p.tree.isDirectory (Path.ofString "src") = true := by rw [← hp]; decide
  have hresolve : p.tree.resolve (Path.ofString "src") = .ok (FileTree.pathOf ["w", "src"]) := by
    rw [← hp]
    rfl
  have hpatterns : (p.tree.ignorePatterns (Path.ofString "src")).isOk = true := by
    rw [← hp]
    decide +kernel
  have hfiles : ∀ q ∈ p.tree.javaFiles (Path.ofString "src"),
      (p.tree.resolve q).isOk = true := by
    rw [← hp]
    decide +kernel
  obtain ⟨-, hagree⟩ := loads_agree .own (by rw [← hp]) ht hdir
    fun _ ↦ (FileTree.ignorePatterns_succeeds_iff hresolve).1 (isOk_iff_succeeds.1 hpatterns)
  obtain ⟨qs, fault, hqs, hfault, -, -, -, hloads⟩ :=
    hagree fun q hq ↦ isOk_iff_succeeds.1 (hfiles q hq)
  have htexts : (p.tree.select p.settings (Path.ofString "src")).toOption.map
      (·.map (·.text)) = some ["src/A.java", "src/B.java", "src/D.java"] := by
    rw [← hp]
    decide +kernel
  have hnone : ((p.tree.select p.settings (Path.ofString "src")).toOption.bind
      (·.findSome? (p.tree.faultAt? .own p.settings))) = none := by
    rw [← hp]
    decide +kernel
  rw [hqs] at htexts hnone
  obtain ⟨l, taken, ⟨b, rfl, hbuild, -⟩, ⟨p', r, hstep, -, hlibrary, -⟩,
    ⟨_, _, rfl, -, hadded, -⟩, hrun, -⟩ := hloads (hfault.trans hnone)
  obtain ⟨hout, -⟩ := hrun { path := "src", listClasses := true } rfl rfl rfl rfl
    (by rw [← hp]; rfl) (by rw [← hp]; exact ⟨_, rfl⟩)
  refine ⟨l, ?_, hbuild, (congrArg (·.1.library) hstep).trans hlibrary,
    ⟨qs, Option.some.inj htexts, hadded⟩, hout⟩
  rw [← hbuild, ← hp]
  decide +kernel

end Project

end JavaOutline
