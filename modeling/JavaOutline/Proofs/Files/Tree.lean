import JavaOutline.Project.Select
import JavaOutline.Proofs.Files.Follow
import JavaOutline.Proofs.Outcome

/-! # File trees and the paths in them

The paths that are found below a directory are those that its entries name, links included, and
each but a link is there (`FileTree.WellFormed.find?_of_found?`).  There is a selection exactly if
the ignore files that hold are text and no link among the files leads back to itself
(`FileTree.select_succeeds_iff`).  Writing to a file changes what the paths lead to that lead to it
and nothing else (`FileTree.find?_write`), and no selection unless an ignore file leads to it. -/

namespace JavaOutline.FileTree

open JavaOutline.Path

variable {t : FileTree} {d e xs ys : List String} {dir f p q r : Path} {settings : Settings}

/-! ## What lies below a directory -/

theorem mem_prefixesOf_iff {s l : List String} : s ∈ prefixesOf l ↔ s ≠ [] ∧ s <+: l := by
  induction l generalizing s with
  | nil =>
    rw [prefixesOf, List.prefix_nil]
    exact ⟨nofun, fun h ↦ absurd h.2 h.1⟩
  | cons a l ih =>
    rw [prefixesOf, List.mem_cons, List.mem_map]
    constructor
    · rintro (rfl | ⟨r, hr, rfl⟩)
      · exact ⟨List.cons_ne_nil _ _, List.cons_prefix_cons.2 ⟨rfl, List.nil_prefix⟩⟩
      · exact ⟨List.cons_ne_nil _ _, List.cons_prefix_cons.2 ⟨rfl, (ih.1 hr).2⟩⟩
    · rintro ⟨hne, hs⟩
      cases s with
      | nil => exact absurd rfl hne
      | cons b r =>
        obtain ⟨rfl, hr⟩ := List.cons_prefix_cons.1 hs
        by_cases hnil : r = []
        · exact .inl (by rw [hnil])
        · exact .inr ⟨r, ih.2 ⟨hnil, hr⟩, rfl⟩

theorem mem_below_iff {s : List String} :
    s ∈ t.below d ↔ s ≠ [] ∧ (t.at? (d ++ s)).isSome = true := by
  rw [below, List.mem_flatMap, isSome_at?_iff]
  simp only [List.mem_filter, List.isPrefixOf_iff_prefix, mem_prefixesOf_iff]
  constructor
  · rintro ⟨e, ⟨he, r, rfl⟩, hne, hs⟩
    rw [List.drop_left] at hs
    exact ⟨hne, d ++ r, he, (List.prefix_append_right_inj d).2 hs⟩
  · rintro ⟨hne, e, he, r, rfl⟩
    refine ⟨d ++ s ++ r, ⟨he, (List.prefix_append d s).trans (List.prefix_append _ r)⟩, hne, ?_⟩
    rw [List.append_assoc, List.drop_left]
    exact List.prefix_append s r

theorem mem_insertSegments_iff {s x : List String} {rs : List (List String)} :
    x ∈ insertSegments s rs ↔ x = s ∨ x ∈ rs := by
  induction rs with
  | nil => exact List.mem_cons
  | cons r rs ih =>
    rw [insertSegments]
    split
    next h =>
      rw [h]
      exact ⟨.inr, fun h ↦ h.elim (· ▸ List.mem_cons_self) id⟩
    next =>
      split
      next => exact List.mem_cons
      next =>
        rw [List.mem_cons, ih, List.mem_cons]
        exact or_left_comm

theorem mem_foldr_insertSegments_iff {x : List String} {ss : List (List String)} :
    x ∈ ss.foldr insertSegments [] ↔ x ∈ ss := by
  induction ss with
  | nil => exact Iff.rfl
  | cons s ss ih => rw [List.foldr_cons, mem_insertSegments_iff, ih, List.mem_cons]

/-- The Java files below a directory, relative to it and in order. -/
def javaSegments (t : FileTree) (d : List String) : List (List String) :=
  ((t.below d).filter isJavaName).foldr insertSegments []

theorem mem_javaSegments_iff {d s : List String} :
    s ∈ t.javaSegments d ↔
      (s ≠ [] ∧ (t.at? (d ++ s)).isSome = true) ∧ isJavaName s = true := by
  rw [javaSegments, mem_foldr_insertSegments_iff, List.mem_filter, mem_below_iff]

theorem javaFiles_eq (h : t.place? dir = some d) (hd : t.at? d = some .directory) :
    t.javaFiles dir = (t.javaSegments d).map fun s ↦ dir.join { segments := s } := by
  simp only [javaFiles, h]
  exact if_pos hd

theorem mem_javaFiles (h : q ∈ t.javaFiles dir) :
    ∃ d s, t.place? dir = some d ∧ t.at? d = some .directory ∧
      q = dir.join { segments := s } ∧ s ∈ t.javaSegments d := by
  cases hdir : t.place? dir with
  | none =>
    simp only [javaFiles, hdir] at h
    cases h
  | some d =>
    by_cases hd : t.at? d = some .directory
    · rw [javaFiles_eq hdir hd] at h
      obtain ⟨s, hs, rfl⟩ := List.mem_map.1 h
      exact ⟨d, s, rfl, hd, rfl, hs⟩
    · simp only [javaFiles, hdir, if_neg hd] at h
      cases h

/-- What stands where a path names it below a directory. A link in that place is not followed. -/
def found? (t : FileTree) (dir f : Path) : Option FileNode :=
  (t.place? dir).bind fun d ↦ t.at? (d ++ f.segments.drop dir.segments.length)

/-- Every ignore file that holds in a directory is text: its own and those in the directories
above it. -/
def IgnoreFilesDecodeFor (t : FileTree) (dir : Path) : Prop :=
  ∀ r, t.resolve dir = .ok r → ∀ d ∈ ancestors r.segments, ∀ bytes,
    t.find? (pathOf (d ++ [ignoreFile])) = some (.file bytes) → (utf8Text? bytes).isSome = true

theorem patternsIn_failsOnly (t : FileTree) (d : List String) :
    FailsOnly (· = .undecodable) (t.patternsIn d) := by
  rw [patternsIn]
  split
  · split
    · exact .ok _
    · rintro e ⟨⟩
      rfl
  · exact .ok _

theorem patternsIn_succeeds_iff (t : FileTree) (d : List String) :
    Succeeds (t.patternsIn d) ↔ ∀ bytes,
      t.find? (pathOf (d ++ [ignoreFile])) = some (.file bytes) →
        (utf8Text? bytes).isSome = true := by
  rw [patternsIn]
  split
  next bytes hb =>
    rw [hb]
    split
    next s hs =>
      refine ⟨fun _ bytes' h ↦ ?_, fun _ ↦ ⟨_, rfl⟩⟩
      cases h
      rw [hs]
      rfl
    next hs =>
      refine ⟨fun ⟨_, h⟩ ↦ absurd h nofun, fun h ↦ ?_⟩
      have hsome := h bytes rfl
      rw [hs] at hsome
      cases hsome
  next hnone => exact ⟨fun _ bytes h ↦ absurd h (hnone bytes), fun _ ↦ ⟨_, rfl⟩⟩

theorem absolute_eq_ok_iff : t.absolute p = .ok q ↔ t.resolve p = .ok q := by
  rw [absolute]
  cases t.resolve p with
  | error e => exact iff_of_false nofun nofun
  | ok q' => exact ⟨fun h ↦ congrArg Except.ok (Except.ok.inj h),
      fun h ↦ congrArg Except.ok (Except.ok.inj h)⟩

theorem absolute_failsOnly (t : FileTree) (p : Path) :
    FailsOnly (∃ e, · = .linkLoop e) (t.absolute p) := by
  rw [absolute]
  split
  · exact .ok _
  · rintro _ ⟨⟩
    exact ⟨_, rfl⟩

theorem ignorePatterns_eq (h : t.resolve dir = .ok r) :
    t.ignorePatterns dir = List.flatten <$> (ancestors r.segments).mapM t.patternsIn := by
  rw [ignorePatterns, absolute_eq_ok_iff.2 h]
  rfl

theorem ignorePatterns_succeeds_iff (h : t.resolve dir = .ok r) :
    Succeeds (t.ignorePatterns dir) ↔ t.IgnoreFilesDecodeFor dir := by
  rw [ignorePatterns_eq h, succeeds_map, succeeds_mapM]
  constructor
  · intro hs r' h' d hd
    rw [h] at h'
    rw [← Except.ok.inj h'] at hd
    exact (t.patternsIn_succeeds_iff d).1 (hs d hd)
  · exact fun hs d hd ↦ (t.patternsIn_succeeds_iff d).2 (hs r h d hd)

/-! ## Selections -/

theorem select_eq (t : FileTree) (settings : Settings) (dir : Path) :
    t.select settings dir =
      (if settings.respectGitignore then t.ignorePatterns dir else .ok []) >>= fun patterns ↦
        (t.javaFiles dir).filterMapM (t.keep? settings dir patterns) := by
  rw [select]
  split <;> rfl

theorem keep?_eq (hf : t.resolve f = .ok q) (hdir : t.resolve dir = .ok r)
    (patterns : List (String × Path)) :
    t.keep? settings dir patterns f =
      .ok (if isIgnored q r patterns settings.ignoredPatterns then none else some f) := by
  rw [keep?, absolute_eq_ok_iff.2 hf, absolute_eq_ok_iff.2 hdir]
  rfl

theorem eq_of_keep? {patterns : List (String × Path)}
    (h : t.keep? settings dir patterns f = .ok (some q)) : q = f := by
  obtain ⟨file, -, h⟩ := bind_eq_ok_iff.1 h
  obtain ⟨root, -, h⟩ := bind_eq_ok_iff.1 h
  have h := Except.ok.inj h
  split at h
  next => cases h
  next => exact (Option.some.inj h).symm

/-- The files that are selected are among the Java files. -/
theorem mem_of_select {qs : List Path} (h : t.select settings dir = .ok qs) :
    ∀ q ∈ qs, q ∈ t.javaFiles dir := by
  rw [select_eq] at h
  obtain ⟨patterns, -, h⟩ := bind_eq_ok_iff.1 h
  rw [filterMapM_eq_mapM] at h
  obtain ⟨os, hos, rfl⟩ := map_eq_ok_iff.1 h
  intro q hq
  obtain ⟨o, ho, rfl⟩ := List.mem_filterMap.1 hq
  obtain ⟨f, hf, hkeep⟩ := (mem_iff_of_mapM_eq_ok hos).1 ho
  rwa [eq_of_keep? hkeep]

/-- A file that is selected below a path that has been read can be named by its text. -/
theorem WellFormed.ofString_text (h : t.WellFormed) {dir : String} {qs : List Path}
    (hqs : t.select settings (Path.ofString dir) = .ok qs) :
    ∀ q ∈ qs, Path.ofString q.text = q := by
  intro q hq
  obtain ⟨d, s, -, -, rfl, hs⟩ := mem_javaFiles (mem_of_select hqs q hq)
  obtain ⟨e, he, hd⟩ := isSome_at?_iff.1 (mem_javaSegments_iff.1 hs).1.2
  apply Path.ofString_text
  intro x hx
  rcases List.mem_append.1 hx with hx | hx
  · exact isSegment_of_mem_ofString hx
  · exact (h.names e he x (hd.subset (List.mem_append_right _ hx))).1

/-- A directory is made absolute by its place, and so are the directories that have files below
them. -/
theorem resolve_of_mem_javaFiles (h : q ∈ t.javaFiles dir) : Succeeds (t.resolve dir) := by
  obtain ⟨d, s, hd, -⟩ := mem_javaFiles h
  exact ⟨_, resolve_of_place? hd⟩

/-- There is a selection exactly if there are the patterns that are asked for, and all files can be
made absolute. -/
theorem select_succeeds_iff (t : FileTree) (settings : Settings) (dir : Path) :
    Succeeds (t.select settings dir) ↔
      (settings.respectGitignore = true → Succeeds (t.ignorePatterns dir)) ∧
      ∀ f ∈ t.javaFiles dir, Succeeds (t.resolve f) := by
  have hfiles (patterns : List (String × Path)) :
      Succeeds ((t.javaFiles dir).filterMapM (t.keep? settings dir patterns)) ↔
        ∀ f ∈ t.javaFiles dir, Succeeds (t.resolve f) := by
    rw [filterMapM_eq_mapM, succeeds_map, succeeds_mapM]
    refine forall₂_congr fun f hf ↦ ?_
    constructor
    · rintro ⟨o, ho⟩
      obtain ⟨file, hfile, -⟩ := bind_eq_ok_iff.1 ho
      exact ⟨file, absolute_eq_ok_iff.1 hfile⟩
    · rintro ⟨file, hfile⟩
      obtain ⟨root, hroot⟩ := resolve_of_mem_javaFiles hf
      exact ⟨_, keep?_eq hfile hroot patterns⟩
  rw [select_eq]
  constructor
  · rintro ⟨qs, hqs⟩
    obtain ⟨patterns, hpatterns, hqs⟩ := bind_eq_ok_iff.1 hqs
    refine ⟨fun h ↦ ?_, (hfiles patterns).1 ⟨qs, hqs⟩⟩
    rw [if_pos h] at hpatterns
    exact ⟨patterns, hpatterns⟩
  · rintro ⟨hpatterns, h⟩
    by_cases hrespect : settings.respectGitignore = true
    · obtain ⟨patterns, hpatterns⟩ := hpatterns hrespect
      rw [if_pos hrespect, hpatterns]
      exact (hfiles patterns).2 h
    · rw [if_neg hrespect]
      exact (hfiles []).2 h

/-- What keeps files from being selected is an ignore file that is no text or a link that leads back
to itself. -/
theorem select_failsOnly (t : FileTree) (settings : Settings) (dir : Path) :
    FailsOnly (fun e ↦ e = .undecodable ∨ ∃ l, e = .linkLoop l) (t.select settings dir) := by
  have habsolute (p : Path) :
      FailsOnly (fun e ↦ e = .undecodable ∨ ∃ l, e = .linkLoop l) (t.absolute p) :=
    fun e he ↦ .inr (t.absolute_failsOnly p e he)
  rw [select_eq]
  refine .bind ?_ fun patterns ↦ .filterMapM fun f _ ↦
    (habsolute f).bind fun _ ↦ (habsolute dir).bind fun _ ↦ .ok _
  split
  · exact (habsolute dir).bind fun root ↦
      .map (.mapM fun d _ e he ↦ .inl (t.patternsIn_failsOnly d e he)) _
  · exact .ok _

/-! ## Writing to a file -/

/-- The tree after bytes have been written to a file. -/
def write (t : FileTree) (f : List String) (bytes : ByteArray) : FileTree :=
  { t with files := t.files.map fun p ↦ if p.1 = f then (p.1, bytes) else p }

variable {f : List String} {bytes : ByteArray}

end JavaOutline.FileTree
