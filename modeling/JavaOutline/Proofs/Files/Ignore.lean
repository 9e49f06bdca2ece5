import JavaOutline.Files.Ignore
import JavaOutline.Proofs.Files.Glob
import JavaOutline.Proofs.Files.Path
import JavaOutline.Proofs.Outcome

/-! # Anchored ignore patterns

An anchored pattern is matched with the texts of whole runs of segments, and a wildcard may stand
for a slash in them.  So a segment of the pattern stands for one segment of the path or, with a
wildcard, for several in a row (`isMatchedBy_anchored_iff`), and a pattern may reach deeper than it
is long (`isMatchedBy_anchored_across`). -/

namespace JavaOutline

open Text

/-- What a segment of a glob may stand for in a path: one segment, or several if there is a wildcard
to stand for the slashes between them. -/
structure Glob.Covers (g : List Char) (run : List (List Char)) : Prop where
  ne_nil : run ≠ []
  stands : Glob.matches g (joinWith ['/'] run) = true
  single_or : run.length = 1 ∨ '*' ∈ g ∨ '?' ∈ g

theorem Glob.covers_splitAt {g t : List Char} (hset : '[' ∉ g) (hslash : '/' ∉ g)
    (h : Glob.matches g t = true) : Glob.Covers g (splitAt '/' t) := by
  refine ⟨splitAt_ne_nil '/' t, ?_, ?_⟩
  · rwa [joinWith_splitAt]
  · by_cases hwild : '*' ∈ g ∨ '?' ∈ g
    · exact .inr hwild
    · obtain ⟨hstar, hany⟩ := not_or.1 hwild
      have hone : splitAt '/' (joinWith ['/'] [g]) = [g] :=
        splitAt_joinWith (List.cons_ne_nil g []) fun l hl ↦ List.mem_singleton.1 hl ▸ hslash
      rw [(Glob.matches_iff_eq hset hstar hany t).1 h]
      exact .inl (congrArg List.length hone)

/-- A glob stands for the text of a run of segments if its own segments stand for parts of the run,
one behind the other. -/
theorem Glob.matches_joinWith_iff {g : List Char} (hset : '[' ∉ g) {run : List (List Char)}
    (hne : run ≠ []) (hslash : ∀ s ∈ run, '/' ∉ s) :
    Glob.matches g (joinWith ['/'] run) = true ↔
      ∃ parts, parts.flatten = run ∧ List.Forall₂ Glob.Covers (splitAt '/' g) parts := by
  rw [Glob.matches_iff hset]
  constructor
  · rintro ⟨ts, hts, hjoin⟩
    have htsne : ts ≠ [] := by
      rintro rfl
      exact splitAt_ne_nil '/' g (List.forall₂_nil_right_iff.1 hts)
    refine ⟨ts.map (splitAt '/'), ?_, ?_⟩
    · rw [← List.flatMap, ← splitAt_joinWith_flatMap '/' htsne, hjoin, splitAt_joinWith hne hslash]
    · rw [List.forall₂_map_right_iff]
      have hsegments : ∀ p ∈ splitAt '/' g, '[' ∉ p ∧ '/' ∉ p := fun p hp ↦
        ⟨fun h ↦ hset (mem_of_mem_splitAt hp h), notMem_of_mem_splitAt hp⟩
      refine ((List.forall₂_and_left _ _).2 ⟨hsegments, hts⟩).imp ?_
      rintro p t ⟨⟨hset, hslash⟩, h⟩
      exact Glob.covers_splitAt hset hslash h
  · rintro ⟨parts, rfl, h⟩
    refine ⟨parts.map (joinWith ['/']), ?_, ?_⟩
    · rw [List.forall₂_map_right_iff]
      exact h.imp fun _ _ ↦ Glob.Covers.stands
    · exact (joinWith_flatten ['/'] (forall_mem_of_forall₂ h fun _ _ ↦ Glob.Covers.ne_nil)).symm

namespace IgnorePattern

theorem mem_leadingRuns {r l : List α} : r ∈ leadingRuns l ↔ r ≠ [] ∧ r <+: l := by
  induction l generalizing r with
  | nil =>
    refine iff_of_false List.not_mem_nil ?_
    rintro ⟨hne, h⟩
    exact hne (List.prefix_nil.1 h)
  | cons a l ih =>
    rw [leadingRuns, List.mem_cons, List.mem_map]
    constructor
    · rintro (rfl | ⟨s, hs, rfl⟩)
      · exact ⟨List.cons_ne_nil a [], List.cons_prefix_cons.2 ⟨rfl, List.nil_prefix⟩⟩
      · exact ⟨List.cons_ne_nil a s, List.cons_prefix_cons.2 ⟨rfl, (ih.1 hs).2⟩⟩
    · rintro ⟨hne, h⟩
      obtain ⟨b, s, rfl⟩ := List.exists_cons_of_ne_nil hne
      obtain ⟨rfl, hs⟩ := List.cons_prefix_cons.1 h
      by_cases hsne : s = []
      · exact .inl (congrArg (b :: ·) hsne)
      · exact .inr ⟨s, ih.2 ⟨hsne, hs⟩, rfl⟩

/-- The segments of the pattern. -/
def segments (p : IgnorePattern) : List (List Char) := splitAt '/' p.glob

/-- The segments that are matched: all, or those of the directories. -/
def matched (p : IgnorePattern) (ss : List (List Char)) : List (List Char) :=
  if p.directoryOnly then ss.dropLast else ss

/-- Each segment of the pattern stands for the segment of the run at the same place. -/
def MatchesEach (p : IgnorePattern) (run : List (List Char)) : Prop :=
  List.Forall₂ (fun g s ↦ Glob.matches g s = true) p.segments run

theorem matched_subset (p : IgnorePattern) (ss : List (List Char)) : p.matched ss ⊆ ss := by
  rw [matched]
  split
  · exact List.dropLast_subset ss
  · exact List.Subset.refl ss

theorem matchesSegments_anchored_iff {p : IgnorePattern} (ha : p.anchored = true)
    (hset : '[' ∉ p.glob) {ss : List (List Char)} (hslash : ∀ s ∈ ss, '/' ∉ s) :
    p.matchesSegments Glob.matches ss = true ↔
      ∃ parts, parts.flatten <+: p.matched ss ∧ List.Forall₂ Glob.Covers p.segments parts := by
  have hmatches : p.matchesSegments Glob.matches ss =
      (leadingRuns (p.matched ss)).any fun run ↦ Glob.matches p.glob (joinWith ['/'] run) := by
    rw [matchesSegments, ha]
    rfl
  rw [hmatches, List.any_eq_true]
  have hrun {run : List (List Char)} (h : run <+: p.matched ss) : ∀ s ∈ run, '/' ∉ s :=
    fun s hs ↦ hslash s (p.matched_subset ss (h.subset hs))
  constructor
  · rintro ⟨run, hmem, h⟩
    obtain ⟨hne, hprefix⟩ := mem_leadingRuns.1 hmem
    obtain ⟨parts, rfl, hparts⟩ := (Glob.matches_joinWith_iff hset hne (hrun hprefix)).1 h
    exact ⟨parts, hprefix, hparts⟩
  · rintro ⟨parts, hprefix, hparts⟩
    have hne : parts.flatten ≠ [] := by
      intro hnil
      obtain ⟨g, gs, hg⟩ := List.exists_cons_of_ne_nil (splitAt_ne_nil '/' p.glob)
      rw [segments, hg] at hparts
      obtain ⟨run, rest, hcovers, -, rfl⟩ := List.forall₂_cons_left_iff.1 hparts
      exact hcovers.ne_nil (List.flatten_eq_nil_iff.1 hnil run List.mem_cons_self)
    exact ⟨_, mem_leadingRuns.2 ⟨hne, hprefix⟩,
      (Glob.matches_joinWith_iff hset hne (hrun hprefix)).2 ⟨parts, rfl, hparts⟩⟩

theorem forall₂_matches_flatten {gs : List (List Char)} {parts : List (List (List Char))}
    (h : List.Forall₂ Glob.Covers gs parts) (hone : ∀ part ∈ parts, part.length = 1) :
    List.Forall₂ (fun g s ↦ Glob.matches g s = true) gs parts.flatten := by
  induction h with
  | nil => exact .nil
  | cons hcovers _ ih =>
    obtain ⟨hpart, hrest⟩ := List.forall_mem_cons.1 hone
    obtain ⟨s, rfl⟩ := List.length_eq_one_iff.1 hpart
    exact .cons hcovers.stands (ih hrest)

/-- Segments stand for single segments if these can be taken as parts of a leading run. -/
theorem exists_matchesEach_iff (p : IgnorePattern) (ss : List (List Char)) :
    (∃ run, run <+: ss ∧ p.MatchesEach run) ↔
      ∃ parts, parts.flatten <+: ss ∧ List.Forall₂ Glob.Covers p.segments parts ∧
        ∀ part ∈ parts, part.length = 1 := by
  constructor
  · rintro ⟨run, hprefix, h⟩
    have hflatten : (run.map fun s ↦ [s]).flatten = run := List.flatMap_singleton' run
    refine ⟨run.map fun s ↦ [s], hflatten.symm ▸ hprefix, ?_, ?_⟩
    · rw [List.forall₂_map_right_iff]
      refine h.imp ?_
      intro g s hs
      exact ⟨List.cons_ne_nil s [], hs, .inl rfl⟩
    · rw [List.forall_mem_map]
      exact fun _ _ ↦ rfl
  · rintro ⟨parts, hprefix, h, hone⟩
    exact ⟨parts.flatten, hprefix, forall₂_matches_flatten h hone⟩

theorem notMem_glob {s : List Char} {p : IgnorePattern} (h : ofText? s = some p) {c : Char}
    (hc : c ∉ s) (hslash : c ≠ '/') : c ∉ p.glob := by
  rw [ofText?] at h
  split at h
  · cases h
  · intro hmem
    rw [← Option.some.inj h] at hmem
    have hmem := (List.dropWhile_sublist _).subset ((isPrefix_dropEndWhile _ _).subset hmem)
    obtain ⟨d, hd, hdc⟩ := List.mem_map.1 hmem
    have hd := mem_of_mem_trim hd
    split at hdc
    · exact hslash hdc.symm
    · exact hc (hdc ▸ hd)

end IgnorePattern

/-- An anchored pattern without brackets matches a file exactly if its segments, in order, stand for
parts of a leading run of the file's segments: each for one segment, or with a wildcard for several
in a row.  Each segment of the pattern stands for the segment at its place exactly if all parts can
be single segments. -/
theorem isMatchedBy_anchored_iff {file dir : Path} {pattern : String} {p : IgnorePattern}
    (hp : IgnorePattern.ofText? pattern.toList = some p) (ha : p.anchored = true)
    (hset : '[' ∉ pattern.toList) {below : List String} (hbelow : dir.below? file = some below)
    (hne : below ≠ []) (hnames : ∀ s ∈ below, Path.IsSegment s) :
    (isMatchedBy file pattern dir = true ↔
      ∃ parts, parts.flatten <+: p.matched (below.map String.toList) ∧
        List.Forall₂ Glob.Covers p.segments parts) ∧
    ((∃ run, run <+: p.matched (below.map String.toList) ∧ p.MatchesEach run) ↔
      ∃ parts, parts.flatten <+: p.matched (below.map String.toList) ∧
        List.Forall₂ Glob.Covers p.segments parts ∧ ∀ part ∈ parts, part.length = 1) := by
  have hmatched : isMatchedBy file pattern dir =
      p.matchesSegments Glob.matches (below.map String.toList) := by
    obtain ⟨s, ss, rfl⟩ := List.exists_cons_of_ne_nil hne
    rw [isMatchedBy, isMatchedUnder, hp, hbelow]
    rfl
  have hslash : ∀ s ∈ below.map String.toList, '/' ∉ s := by
    rw [List.forall_mem_map]
    exact fun s hs ↦ (hnames s hs).2.2
  refine ⟨?_, p.exists_matchesEach_iff _⟩
  rw [hmatched]
  exact IgnorePattern.matchesSegments_anchored_iff ha
    (IgnorePattern.notMem_glob hp hset (by decide)) hslash

/-- A directory pattern two segments long, with a star and a question mark, and a file further below
what it stands for. -/
theorem isMatchedBy_anchored_directory : ∃ (file dir : Path) (p : IgnorePattern),
    file = .ofString "/p/src/gen1/x/A.java" ∧ dir = .ofString "/p" ∧
      IgnorePattern.ofText? " s*c\\gen?/".toList = some p ∧ p.anchored = true ∧
      p.segments = ["s*c".toList, "gen?".toList] ∧
      '[' ∉ " s*c\\gen?/".toList ∧ dir.below? file = some ["src", "gen1", "x", "A.java"] ∧
      (∀ s ∈ ["src", "gen1", "x", "A.java"], Path.IsSegment s) ∧
      isMatchedBy file " s*c\\gen?/" dir = true := by
  have hset : '[' ∉ " s*c\\gen?/".toList := by decide
  have hbelow : (Path.ofString "/p").below? (.ofString "/p/src/gen1/x/A.java") =
      some ["src", "gen1", "x", "A.java"] := by decide +kernel
  have hnames : ∀ s ∈ ["src", "gen1", "x", "A.java"], Path.IsSegment s := by decide
  have hp : IgnorePattern.ofText? " s*c\\gen?/".toList =
      some { glob := "s*c/gen?".toList, anchored := true, directoryOnly := true } := by decide
  refine ⟨_, _, _, rfl, rfl, hp, rfl, by decide, hset, hbelow, hnames, ?_⟩
  refine (isMatchedBy_anchored_iff hp rfl hset hbelow nofun hnames).1.2
    ⟨[["src".toList], ["gen1".toList]], by decide, ?_⟩
  exact .cons ⟨nofun, by decide, .inl rfl⟩ (.cons ⟨nofun, by decide, .inl rfl⟩ .nil)

/-- A star stands for a slash: the pattern has two segments, the file it matches three, and no
leading run of these is matched segment by segment. -/
theorem isMatchedBy_anchored_across : ∃ (file dir : Path) (p : IgnorePattern),
    file = .ofString "/p/src/a/B.java" ∧ dir = .ofString "/p" ∧
      IgnorePattern.ofText? "/src/*.java".toList = some p ∧ p.anchored = true ∧
      p.segments = ["src".toList, "*.java".toList] ∧
      dir.below? file = some ["src", "a", "B.java"] ∧
      isMatchedBy file "/src/*.java" dir = true ∧
      ¬∃ run, run <+: p.matched (["src", "a", "B.java"].map String.toList) ∧ p.MatchesEach run := by
  refine ⟨_, _, { glob := "src/*.java".toList, anchored := true, directoryOnly := false },
    rfl, rfl, by decide, rfl, by decide, by decide +kernel, by decide +kernel, ?_⟩
  rintro ⟨run, hprefix, heach⟩
  have hlength : run.length = 2 := heach.length_eq.symm
  have hrun : run = ["src".toList, "a".toList] := by
    rw [List.prefix_iff_eq_take.1 hprefix, hlength]
    rfl
  rw [hrun] at heach
  have hlast : Glob.matches "*.java".toList "a".toList = true :=
    (List.forall₂_cons.1 (List.forall₂_cons.1 heach).2).1
  exact absurd hlast (by decide)

end JavaOutline
