import JavaOutline.Proofs.Files.Ignore

/-! # Ignore patterns below and elsewhere

Whatever a glob stands for, a pattern is held against texts that are taken from the segments below
the pattern's directory and from nothing else (`IgnorePattern.matchesSegments_eq`,
`isMatchedUnder_join`).  More segments only add to these texts, so what is below a matched path is
matched too; and a slash behind the pattern takes the last segment away
(`IgnorePattern.ofText?_slash`), so it leaves what is below matched directories. -/

namespace JavaOutline

open Text

namespace IgnorePattern

/-- The texts that the glob of a pattern is held against. -/
def candidates (p : IgnorePattern) (ss : List (List Char)) : List (List Char) :=
  if p.anchored then (leadingRuns (p.matched ss)).map (joinWith ['/']) else p.matched ss

theorem matchesSegments_eq (stands : List Char → List Char → Bool) (p : IgnorePattern)
    (ss : List (List Char)) :
    p.matchesSegments stands ss = (p.candidates ss).any (stands p.glob) := by
  rw [matchesSegments, ← matched, candidates]
  split
  · rw [List.any_map]
    rfl
  · rfl

theorem matchesSegments_nil (stands : List Char → List Char → Bool) (p : IgnorePattern) :
    p.matchesSegments stands [] = false := by
  have hmatched : p.matched [] = [] := by
    rw [matched]
    split <;> rfl
  rw [matchesSegments_eq, candidates, hmatched]
  split <;> rfl

/-! ## Longer paths -/

theorem matched_append (p : IgnorePattern) (xs ys : List (List Char)) :
    p.matched xs <+: p.matched (xs ++ ys) := by
  rw [matched, matched]
  split
  · by_cases hys : ys = []
    · rw [hys, List.append_nil]
    · rw [List.dropLast_append_of_ne_nil hys]
      exact (List.dropLast_prefix xs).trans (List.prefix_append xs _)
  · exact List.prefix_append xs ys

/-- Further segments take none of the texts away. -/
theorem candidates_subset_append (p : IgnorePattern) (xs ys : List (List Char)) :
    p.candidates xs ⊆ p.candidates (xs ++ ys) := by
  have hlead := p.matched_append xs ys
  rw [candidates, candidates]
  split
  · refine List.map_subset _ fun run hrun ↦ ?_
    obtain ⟨hne, hrun⟩ := mem_leadingRuns.1 hrun
    exact mem_leadingRuns.2 ⟨hne, hrun.trans hlead⟩
  · exact hlead.subset

theorem matchesSegments_append {stands : List Char → List Char → Bool} {p : IgnorePattern}
    {xs : List (List Char)} (h : p.matchesSegments stands xs = true) (ys : List (List Char)) :
    p.matchesSegments stands (xs ++ ys) = true := by
  rw [matchesSegments_eq, List.any_eq_true] at h ⊢
  obtain ⟨t, ht, h⟩ := h
  exact ⟨t, p.candidates_subset_append xs ys ht, h⟩

/-! ## Directories only -/

/-- A pattern that can be written for directories only by a slash behind it: it is trimmed, is not
negated, and has no slash behind it yet. -/
structure IsPlain (s : List Char) : Prop where
  ne_nil : s ≠ []
  trimmed : trim s = s
  head : s.head? ≠ some '!'
  last : s.getLast? ≠ some '/' ∧ s.getLast? ≠ some '\\'

instance (s : List Char) : Decidable (IsPlain s) :=
  decidable_of_iff (s ≠ [] ∧ trim s = s ∧ s.head? ≠ some '!' ∧
      s.getLast? ≠ some '/' ∧ s.getLast? ≠ some '\\')
    ⟨fun ⟨h, h', h'', hl⟩ ↦ ⟨h, h', h'', hl⟩, fun ⟨h, h', h'', hl⟩ ↦ ⟨h, h', h'', hl⟩⟩

/-- A pattern with its backslashes read as slashes. -/
def slashed (s : List Char) : List Char := s.map fun c ↦ if c = '\\' then '/' else c

/-- A pattern without the slashes in front. -/
def unrooted (s : List Char) : List Char := (slashed s).dropWhile (· = '/')

theorem head?_slashed_ne {s : List Char} (h : s.head? ≠ some '!') :
    (slashed s).head? ≠ some '!' := by
  cases s with
  | nil => exact h
  | cons c r =>
    rw [slashed, List.map_cons, List.head?_cons]
    split
    next => decide
    next => exact h

theorem ofText?_of_trimmed {s : List Char} (htrim : trim s = s) (hhead : s.head? ≠ some '!')
    (hne : dropEndWhile (· = '/') (unrooted s) ≠ []) :
    ofText? s = some
      { glob := dropEndWhile (· = '/') (unrooted s)
        anchored := (slashed s).head? == some '/' ||
          (dropEndWhile (· = '/') (unrooted s)).contains '/'
        directoryOnly := (unrooted s).getLast? == some '/' } := by
  have hs : (slashed s).isEmpty = false := by
    rw [List.isEmpty_eq_false_iff]
    intro hnil
    rw [unrooted, hnil] at hne
    exact hne rfl
  have hbang : ((slashed s).head? == some '!') = false := by
    simpa using head?_slashed_ne hhead
  have hglob : (dropEndWhile (· = '/') (unrooted s)).isEmpty = false :=
    List.isEmpty_eq_false_iff.2 hne
  rw [ofText?, htrim, ← slashed, ← unrooted, hs, hbang, hglob]
  rfl

theorem IsPlain.getLast?_slashed {s : List Char} (h : IsPlain s) :
    (slashed s).getLast? ≠ some '/' := by
  rw [slashed, List.getLast?_map]
  intro hlast
  obtain ⟨c, hc, hslash⟩ := Option.map_eq_some_iff.1 hlast
  split at hslash
  next hback => exact h.last.2 (hback ▸ hc)
  next => exact h.last.1 (hslash ▸ hc)

/-- The slashes in front leave something, since there is none behind. -/
theorem IsPlain.unrooted_ne_nil {s : List Char} (h : IsPlain s) : unrooted s ≠ [] := by
  intro hnil
  have hne : slashed s ≠ [] := fun h' ↦ h.ne_nil (List.map_eq_nil_iff.1 h')
  have hslash := List.dropWhile_eq_nil_iff.1 hnil _ (List.getLast_mem hne)
  refine h.getLast?_slashed ?_
  rw [List.getLast?_eq_getLast_of_ne_nil hne, of_decide_eq_true hslash]

theorem IsPlain.getLast?_unrooted {s : List Char} (h : IsPlain s) :
    (unrooted s).getLast? ≠ some '/' := by
  have hlast := h.getLast?_slashed
  obtain ⟨r, hr⟩ : unrooted s <:+ slashed s := List.dropWhile_suffix _
  rwa [← hr, List.getLast?_append_of_ne_nil _ h.unrooted_ne_nil] at hlast

theorem IsPlain.dropEndWhile_unrooted {s : List Char} (h : IsPlain s) :
    dropEndWhile (· = '/') (unrooted s) = unrooted s := by
  refine dropEndWhile_eq_self ?_
  have hlast := h.getLast?_unrooted
  cases hc : (unrooted s).getLast? with
  | none => rfl
  | some c => simpa [hc] using hlast

theorem IsPlain.unrooted_slash {s : List Char} (h : IsPlain s) :
    unrooted (s ++ ['/']) = unrooted s ++ ['/'] := by
  rw [unrooted, slashed, List.map_append, ← slashed, List.dropWhile_append]
  exact if_neg fun hnil ↦ h.unrooted_ne_nil (List.isEmpty_iff.1 hnil)

theorem IsPlain.trim_slash {s : List Char} (h : IsPlain s) : trim (s ++ ['/']) = s ++ ['/'] := by
  have hstart : startsBlank s = false := h.trimmed ▸ startsBlank_trim s
  refine trim_eq_self ?_ ((endsBlank_concat s '/').trans (by decide))
  obtain ⟨c, r, rfl⟩ := List.exists_cons_of_ne_nil h.ne_nil
  exact hstart

/-- A slash behind a plain pattern restricts it to directories and changes nothing else. -/
theorem IsPlain.ofText?_slash {s : List Char} (h : IsPlain s) :
    ∃ p, ofText? s = some p ∧ p.directoryOnly = false ∧
      ofText? (s ++ ['/']) = some { p with directoryOnly := true } := by
  have hglob := h.dropEndWhile_unrooted
  have hglobSlash : dropEndWhile (· = '/') (unrooted (s ++ ['/'])) = unrooted s := by
    rw [h.unrooted_slash, dropEndWhile_append_of_pos _ (by simp), hglob]
  have hhead : (s ++ ['/']).head? = s.head? := List.head?_append_of_ne_nil _ h.ne_nil
  have hheadSlash : (slashed (s ++ ['/'])).head? = (slashed s).head? := by
    rw [slashed, slashed, List.head?_map, List.head?_map, hhead]
  have hplain := ofText?_of_trimmed h.trimmed h.head (by rw [hglob]; exact h.unrooted_ne_nil)
  have hslash := ofText?_of_trimmed h.trim_slash (hhead ▸ h.head)
    (by rw [hglobSlash]; exact h.unrooted_ne_nil)
  rw [hglob] at hplain
  rw [hglobSlash, hheadSlash, h.unrooted_slash, List.getLast?_concat] at hslash
  refine ⟨_, hplain, ?_, hslash⟩
  simpa using h.getLast?_unrooted

/-- Written for directories only, a pattern leaves the last segment out. -/
theorem matchesSegments_directoryOnly (stands : List Char → List Char → Bool) {p : IgnorePattern}
    (hp : p.directoryOnly = false) (ss : List (List Char)) :
    { p with directoryOnly := true }.matchesSegments stands ss =
      p.matchesSegments stands ss.dropLast := by
  rw [matchesSegments, matchesSegments, hp]
  rfl

end IgnorePattern

/-! ## Files below a directory -/

variable {stands : List Char → List Char → Bool} {pattern : String}

theorem matchedSegments_of_ne_nil {ss : List String} (h : ss ≠ []) :
    matchedSegments ss = ss.map String.toList := by
  obtain ⟨s, ss, rfl⟩ := List.exists_cons_of_ne_nil h
  rfl

/-- Where the pattern's directory lies does not count. -/
theorem isMatchedUnder_join (dir : Path) {r : Path} (hr : r.root = .relative) :
    isMatchedUnder stands (dir.join r) pattern dir =
      (IgnorePattern.ofText? pattern.toList).any
        (·.matchesSegments stands (matchedSegments r.segments)) := by
  rw [isMatchedUnder, Path.below?_join dir hr]
  cases IgnorePattern.ofText? pattern.toList <;> rfl

theorem isMatchedUnder_join_join {dir x y : Path} (hx : dir.IsBelow x) (hy : y.root = .relative)
    (h : isMatchedUnder stands x pattern dir = true) :
    isMatchedUnder stands (x.join y) pattern dir = true := by
  obtain ⟨r, hr, hne, rfl⟩ := Path.isBelow_iff.1 hx
  have hry : (r.join y).segments = r.segments ++ y.segments := by rw [Path.join_of_relative hy]
  have hroot : (r.join y).root = .relative := by rw [Path.join_of_relative hy, hr]
  rw [isMatchedUnder_join dir hr] at h
  rw [Path.join_join hr hy, isMatchedUnder_join dir hroot, hry,
    matchedSegments_of_ne_nil (List.append_ne_nil_of_left_ne_nil hne _), List.map_append,
    ← matchedSegments_of_ne_nil hne]
  obtain ⟨p, hp, h⟩ := (Option.any_eq_true _ _).1 h
  exact (Option.any_eq_true _ _).2 ⟨p, hp, IgnorePattern.matchesSegments_append h _⟩

theorem isMatchedUnder_slash_iff {dir x : Path} (hx : dir.IsBelow x)
    (hp : IgnorePattern.IsPlain pattern.toList) :
    isMatchedUnder stands x (pattern ++ "/") dir = true ↔
      dir.IsBelow x.parent ∧ isMatchedUnder stands x.parent pattern dir = true := by
  obtain ⟨r, hr, hne, rfl⟩ := Path.isBelow_iff.1 hx
  obtain ⟨p, hplain, hall, hslash⟩ := hp.ofText?_slash
  have hparent : r.parent.root = .relative := hr
  have htext : (pattern ++ "/").toList = pattern.toList ++ ['/'] := String.toList_append
  rw [Path.parent_join hr hne, Path.isBelow_join hparent, isMatchedUnder_join dir hr,
    isMatchedUnder_join dir hparent, htext, hslash, hplain, Option.any_some, Option.any_some,
    IgnorePattern.matchesSegments_directoryOnly stands hall, matchedSegments_of_ne_nil hne,
    ← List.map_dropLast]
  by_cases hnil : r.parent.segments = []
  · have hlast : r.segments.dropLast = [] := hnil
    rw [hlast, List.map_nil, IgnorePattern.matchesSegments_nil]
    exact ⟨nofun, fun h ↦ absurd hnil h.1⟩
  · rw [matchedSegments_of_ne_nil hnil]
    exact ⟨fun h ↦ ⟨hnil, h⟩, fun h ↦ h.2⟩

/-- Whatever a glob stands for: what lies below a matched path is matched; a slash behind a pattern
makes it match what lies below the paths that it matched; and a path is matched alike below any
directory. -/
theorem isMatchedUnder_is_inherited (stands : List Char → List Char → Bool) (pattern : String)
    (dir : Path) :
    (∀ x y : Path, dir.IsBelow x → y.root = .relative → y.segments ≠ [] →
      isMatchedUnder stands x pattern dir = true →
      isMatchedUnder stands (x.join y) pattern dir = true) ∧
    (∀ x : Path, dir.IsBelow x → IgnorePattern.IsPlain pattern.toList →
      (isMatchedUnder stands x (pattern ++ "/") dir = true ↔
        dir.IsBelow x.parent ∧ isMatchedUnder stands x.parent pattern dir = true)) ∧
    ∀ e r : Path, r.root = .relative →
      isMatchedUnder stands (dir.join r) pattern dir =
        isMatchedUnder stands (e.join r) pattern e := by
  refine ⟨fun x y hx hy _ h ↦ isMatchedUnder_join_join hx hy h,
    fun x hx hp ↦ isMatchedUnder_slash_iff hx hp, fun e r hr ↦ ?_⟩
  rw [isMatchedUnder_join dir hr, isMatchedUnder_join e hr]

/-- A pattern with an inner slash and a star, a directory that it matches, and a file in there. -/
theorem isMatchedUnder_is_inherited_generated : ∃ dir x y e r : Path,
    dir = .ofString "/p" ∧ x = .ofString "/p/src/gen1" ∧ y = .ofString "a/A.java" ∧
      e = .ofString "q/src" ∧ r = .ofString "src/gen1" ∧
      dir.IsBelow x ∧ dir.IsBelow (x.join y) ∧ y.root = .relative ∧ y.segments ≠ [] ∧
      IgnorePattern.IsPlain "src\\gen*".toList ∧
      isMatchedUnder Glob.matches x "src\\gen*" dir = true ∧
      isMatchedUnder Glob.matches (x.join y) "src\\gen*" dir = true ∧
      isMatchedUnder Glob.matches (x.join y) "src\\gen*/" dir = true ∧
      isMatchedUnder Glob.matches (e.join r) "src\\gen*" e = true := by
  have h := isMatchedUnder_is_inherited Glob.matches "src\\gen*" (.ofString "/p")
  have hx : (Path.ofString "/p").IsBelow (.ofString "/p/src/gen1") := by decide +kernel
  have hxy : (Path.ofString "/p").IsBelow
      ((Path.ofString "/p/src/gen1").join (.ofString "a/A.java")) := by decide +kernel
  have hparent : (Path.ofString "/p").IsBelow
      ((Path.ofString "/p/src/gen1").join (.ofString "a/A.java")).parent := by decide +kernel
  have hplain : IgnorePattern.IsPlain "src\\gen*".toList := by decide
  have hmatch : isMatchedUnder Glob.matches (.ofString "/p/src/gen1") "src\\gen*"
      (.ofString "/p") = true := by decide +kernel
  have hfile := h.1 _ (.ofString "a/A.java") hx rfl (by decide +kernel) hmatch
  have hdirectory := h.1 _ (.ofString "a") hx rfl (by decide +kernel) hmatch
  refine ⟨_, _, _, _, _, rfl, rfl, rfl, rfl, rfl, hx, hxy, rfl, by decide +kernel, hplain, hmatch,
    hfile, (h.2.1 _ hxy hplain).2 ⟨hparent, hdirectory⟩, ?_⟩
  exact (h.2.2 (.ofString "q/src") (.ofString "src/gen1") rfl).symm.trans hmatch

end JavaOutline
