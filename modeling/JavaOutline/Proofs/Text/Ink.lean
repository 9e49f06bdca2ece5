import JavaOutline.Proofs.Text.Lines

/-! # Ink

The ink of a text is what is left without its blanks.  Trimming and cutting into lines keep it, and
the blank lines at both ends of a list of lines are those without ink. -/

namespace JavaOutline.Text

/-- A text without its blanks. -/
def ink (s : List Char) : List Char := s.filter fun c ↦ !isBlank c

theorem ink_append (s t : List Char) : ink (s ++ t) = ink s ++ ink t := List.filter_append s t

theorem ink_eq_nil {s : List Char} : ink s = [] ↔ ∀ c ∈ s, isBlank c = true := by
  simp [ink]

theorem all_isBlank {s : List Char} : s.all isBlank = true ↔ ink s = [] := by
  rw [ink_eq_nil, List.all_eq_true]

theorem ink_trimEnd (s : List Char) : ink (trimEnd s) = ink s := by
  obtain ⟨t, hs, ht⟩ := exists_append_eq_dropEndWhile isBlank s
  rw [← trimEnd] at hs
  conv_rhs => rw [← hs, ink_append, ink_eq_nil.2 ht, List.append_nil]

theorem ink_trim (s : List Char) : ink (trim s) = ink s := by
  have hblank : ink (s.takeWhile isBlank) = [] :=
    ink_eq_nil.2 fun _ hc ↦ List.mem_takeWhile_imp hc
  conv_rhs => rw [← List.takeWhile_append_dropWhile (p := isBlank) (l := s), ink_append, hblank,
    List.nil_append]
  rw [trim, ink_trimEnd, trimStart]

/-- A text without ink that does not end with a blank is empty. -/
theorem eq_nil_of_endsBlank {s : List Char} (h : endsBlank s = false) (hink : ink s = []) :
    s = [] := by
  rw [← trimEnd_eq_self h]
  exact trimEnd_append_of_blank [] (ink_eq_nil.1 hink)

theorem endsBlank_drop {s : List Char} (h : endsBlank s = false) (n : Nat) :
    endsBlank (s.drop n) = false := by
  by_cases hd : s.drop n = []
  · rw [hd, endsBlank_nil]
  · rwa [← endsBlank_append (s.take n) hd, List.take_append_drop]

/-- The ink of a text is that of its lines. -/
theorem ink_unlines (ls : List (List Char)) : ink (unlines ls) = ls.flatMap ink := by
  induction ls with
  | nil => rfl
  | cons l ls ih =>
    cases ls with
    | nil => rw [unlines, joinWith, List.flatMap_singleton]
    | cons m ls =>
      have hend : ink ['\n'] = [] := rfl
      rw [unlines, joinWith, ← unlines, ink_append, ink_append, hend, List.append_nil, ih,
        ← List.flatMap_cons]

/-! ## Texts without lines -/

/-- The lines of a text; an empty text has none. -/
def textLines (s : List Char) : List (List Char) := if s = [] then [] else lines s

theorem unlines_textLines (s : List Char) : unlines (textLines s) = s := by
  rw [textLines]
  split
  next h => exact h.symm
  next => exact unlines_lines s

theorem notMem_of_mem_textLines {s l : List Char} (h : l ∈ textLines s) : '\n' ∉ l := by
  rw [textLines] at h
  split at h
  next => cases h
  next => exact notMem_of_mem_lines h

theorem textLines_unlines {ls : List (List Char)} (h : ∀ l ∈ ls, '\n' ∉ l) (hne : ls ≠ [[]]) :
    textLines (unlines ls) = ls := by
  by_cases hls : ls = []
  · rw [hls]
    rfl
  · have hlines := lines_unlines hls h
    rw [textLines, hlines, if_neg]
    intro hnil
    rw [hnil, lines_nil] at hlines
    exact hne hlines.symm

/-! ## Blank lines at both ends -/

/-- The first line and the last one have ink. -/
def IsInked (ls : List (List Char)) : Prop :=
  (∀ l ∈ ls.head?, ink l ≠ []) ∧ ∀ l ∈ ls.getLast?, ink l ≠ []

theorem IsInked.map {ls : List (List Char)} {f : List Char → List Char} (h : IsInked ls)
    (hf : ∀ l ∈ ls, ink (f l) = ink l) : IsInked (ls.map f) := by
  constructor
  · intro d hd
    rw [List.head?_map] at hd
    obtain ⟨l, hl, rfl⟩ := Option.map_eq_some_iff.1 hd
    rw [hf l (List.mem_of_head? hl)]
    exact h.1 l hl
  · intro d hd
    rw [List.getLast?_map] at hd
    obtain ⟨l, hl, rfl⟩ := Option.map_eq_some_iff.1 hd
    rw [hf l (List.mem_of_getLast? hl)]
    exact h.2 l hl

theorem isInked_trimBlankLines (ls : List (List Char)) : IsInked (trimBlankLines ls) := by
  constructor
  · intro l hl hink
    have hp := head?_dropEndWhile_dropWhile hl
    rw [all_isBlank.2 hink] at hp
    cases hp
  · intro l hl hink
    have hp := getLast?_dropEndWhile (·.all isBlank) (ls.dropWhile (·.all isBlank))
    rw [← trimBlankLines, hl, Option.any_some, all_isBlank.2 hink] at hp
    cases hp

/-- Dropping lines without ink at both ends keeps the ink. -/
theorem flatMap_ink_dropEndWhile_dropWhile {p : List Char → Bool} (hp : ∀ l, p l → ink l = [])
    (ls : List (List Char)) :
    (dropEndWhile p (ls.dropWhile p)).flatMap ink = ls.flatMap ink := by
  obtain ⟨before, after, hls, hdropped⟩ := exists_append_eq_dropEndWhile_dropWhile p ls
  have hbefore : before.flatMap ink = [] :=
    List.flatMap_eq_nil_iff.2 fun l hl ↦ hp l (hdropped l (List.mem_append_left after hl))
  have hafter : after.flatMap ink = [] :=
    List.flatMap_eq_nil_iff.2 fun l hl ↦ hp l (hdropped l (List.mem_append_right before hl))
  conv_rhs => rw [← hls, List.flatMap_append, List.flatMap_append, hbefore, hafter,
    List.nil_append, List.append_nil]

theorem flatMap_ink_trimEmptyLines (ls : List (List Char)) :
    (trimEmptyLines ls).flatMap ink = ls.flatMap ink := by
  apply flatMap_ink_dropEndWhile_dropWhile
  intro l hl
  rw [List.isEmpty_iff.1 hl]
  rfl

/-- Only lines without ink are dropped. -/
theorem exists_append_eq_trimBlankLines (ls : List (List Char)) :
    ∃ before after, before ++ trimBlankLines ls ++ after = ls ∧
      ∀ l ∈ before ++ after, ink l = [] := by
  obtain ⟨before, after, hls, hblank⟩ := exists_append_eq_dropEndWhile_dropWhile (·.all isBlank) ls
  exact ⟨before, after, hls, fun l hl ↦ all_isBlank.1 (hblank l hl)⟩

theorem flatMap_ink_trimBlankLines (ls : List (List Char)) :
    (trimBlankLines ls).flatMap ink = ls.flatMap ink :=
  flatMap_ink_dropEndWhile_dropWhile (fun _ ↦ all_isBlank.1) ls

/-- All lines without ink at the ends are dropped. -/
theorem trimBlankLines_append {before ls after : List (List Char)}
    (hbefore : ∀ l ∈ before, ink l = []) (hls : IsInked ls) (hafter : ∀ l ∈ after, ink l = []) :
    trimBlankLines (before ++ ls ++ after) = ls := by
  have hblank {ms : List (List Char)} (h : ∀ l ∈ ms, ink l = []) :
      ∀ l ∈ ms, l.all isBlank = true := fun l hl ↦ all_isBlank.2 (h l hl)
  rw [trimBlankLines, List.append_assoc, List.dropWhile_append_of_pos (hblank hbefore)]
  cases ls with
  | nil => rw [List.nil_append, List.dropWhile_eq_nil_iff.2 (hblank hafter), dropEndWhile_nil]
  | cons l ls =>
    have hfirst : ¬ l.all isBlank = true := fun h ↦ hls.1 l rfl (all_isBlank.1 h)
    rw [List.cons_append, List.dropWhile_cons, if_neg hfirst, ← List.cons_append,
      dropEndWhile_append_of_pos _ (hblank hafter)]
    apply dropEndWhile_eq_self
    cases hlast : (l :: ls).getLast? with
    | none => rfl
    | some m => exact Bool.eq_false_iff.2 fun h ↦ hls.2 m hlast (all_isBlank.1 h)

end JavaOutline.Text
