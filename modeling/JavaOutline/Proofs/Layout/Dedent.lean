import JavaOutline.Proofs.Layout.Sink
import JavaOutline.Proofs.Text.Ink

/-! # Taking indentation away

The common indentation of lines is the longest run of spaces and tabs that all of them start with
unless they are blank.  Taking it away leaves lines without any (`Text.isDedented_dedentLines`), and
such lines come back when they have been put behind some indentation
(`Text.dedentLines_indented`).  Outdented lines have lost the blanks at their ends as well; no ink
is lost with either (`Text.flatMap_ink_outdented`). -/

namespace JavaOutline.Text

open Sink

/-! ## Common starts -/

theorem commonStart_isPrefix (a b : List Char) : commonStart a b <+: a ∧ commonStart a b <+: b := by
  induction a generalizing b with
  | nil => exact ⟨List.prefix_rfl, List.nil_prefix⟩
  | cons c a ih =>
    cases b with
    | nil => exact ⟨List.nil_prefix, List.prefix_rfl⟩
    | cons d b =>
      rw [commonStart]
      split
      next h =>
        subst h
        exact ⟨List.cons_prefix_cons.2 ⟨rfl, (ih b).1⟩, List.cons_prefix_cons.2 ⟨rfl, (ih b).2⟩⟩
      next => exact ⟨List.nil_prefix, List.nil_prefix⟩

theorem commonStart_append (p a b : List Char) :
    commonStart (p ++ a) (p ++ b) = p ++ commonStart a b := by
  induction p with
  | nil => rfl
  | cons c p ih =>
    show commonStart (c :: (p ++ a)) (c :: (p ++ b)) = c :: (p ++ commonStart a b)
    rw [commonStart, if_pos rfl, ih]

theorem foldl_commonStart_isPrefix (i : List Char) (is : List (List Char)) :
    ∀ j ∈ i :: is, is.foldl commonStart i <+: j := by
  induction is generalizing i with
  | nil =>
    intro j hj
    obtain rfl := List.mem_singleton.1 hj
    exact List.prefix_rfl
  | cons k is ih =>
    intro j hj
    have hle := ih (commonStart i k) _ List.mem_cons_self
    rw [List.foldl_cons]
    rcases List.mem_cons.1 hj with rfl | hj
    · exact hle.trans (commonStart_isPrefix j k).1
    · rcases List.mem_cons.1 hj with rfl | hj
      · exact hle.trans (commonStart_isPrefix i j).2
      · exact ih _ j (List.mem_cons_of_mem _ hj)

theorem foldl_commonStart_append (p i : List Char) (is : List (List Char)) :
    (is.map (p ++ ·)).foldl commonStart (p ++ i) = p ++ is.foldl commonStart i := by
  induction is generalizing i with
  | nil => rfl
  | cons k is ih => rw [List.map_cons, List.foldl_cons, commonStart_append, ih, List.foldl_cons]

/-! ## Indentation -/

/-- The text is made of spaces and tabs. -/
def IsIndent (p : List Char) : Prop := ∀ c ∈ p, isIndentChar c = true

theorem IsIndent.isBlank {p : List Char} (h : IsIndent p) : ∀ c ∈ p, isBlank c = true := by
  intro c hc
  have h : c = ' ' ∨ c = '\t' := by simpa [isIndentChar] using h c hc
  rcases h with rfl | rfl <;> rfl

theorem IsIndent.notMem {p : List Char} (h : IsIndent p) : '\n' ∉ p :=
  fun hp ↦ absurd (h _ hp) (by decide)

theorem isIndent_indentOf (l : List Char) : IsIndent (indentOf l) := by
  intro c hc
  exact List.mem_takeWhile_imp hc

theorem indentOf_append {p : List Char} (hp : IsIndent p) (l : List Char) :
    indentOf (p ++ l) = p ++ indentOf l := List.takeWhile_append_of_pos hp

/-- The line holds something else than spaces and tabs. -/
def hasText (l : List Char) : Bool := !l.all isIndentChar

theorem hasText_append {p : List Char} (hp : IsIndent p) (l : List Char) :
    hasText (p ++ l) = hasText l := by
  have hall : p.all isIndentChar = true := List.all_eq_true.2 hp
  rw [hasText, hasText, List.all_append, hall, Bool.true_and]

theorem ne_nil_of_hasText {l : List Char} (h : hasText l = true) : l ≠ [] := by
  rintro rfl
  cases h

/-- No line is made of spaces and tabs alone; it is empty then. -/
def NoPadding (ls : List (List Char)) : Prop := ∀ l ∈ ls, hasText l = false → l = []

theorem hasText_indented {pre : List Char} (hpre : IsIndent pre) {l : List Char}
    (hl : hasText l = false → l = []) : hasText (indented pre l) = hasText l := by
  by_cases h : hasText l
  · rw [indented, if_neg (ne_nil_of_hasText h), hasText_append hpre]
  · rw [hl (Bool.eq_false_iff.2 h), indented_nil]

/-! ## The common indentation -/

theorem commonIndent_eq {ls : List (List Char)} {i : List Char} {is : List (List Char)}
    (h : (ls.filter hasText).map indentOf = i :: is) :
    commonIndent ls = is.foldl commonStart i := by
  have h : (ls.filter fun l ↦ !l.all isIndentChar).map indentOf = i :: is := h
  rw [commonIndent, h]

theorem commonIndent_of_forall {ls : List (List Char)} (h : ∀ l ∈ ls, hasText l = false) :
    commonIndent ls = [] := by
  have hnone : ls.filter (fun l ↦ !l.all isIndentChar) = [] :=
    List.filter_eq_nil_iff.2 fun l hl ↦ Bool.eq_false_iff.1 (h l hl)
  rw [commonIndent, hnone, List.map_nil]

/-- Every line that has text starts with the common indentation. -/
theorem commonIndent_isPrefix {ls : List (List Char)} {l : List Char} (hl : l ∈ ls)
    (h : hasText l = true) : commonIndent ls <+: indentOf l := by
  have hmem : indentOf l ∈ (ls.filter hasText).map indentOf :=
    List.mem_map_of_mem (List.mem_filter.2 ⟨hl, h⟩)
  obtain ⟨i, is, hi⟩ := List.exists_cons_of_ne_nil (List.ne_nil_of_mem hmem)
  rw [commonIndent_eq hi]
  exact foldl_commonStart_isPrefix i is _ (hi ▸ hmem)

theorem isIndent_commonIndent (ls : List (List Char)) : IsIndent (commonIndent ls) := by
  by_cases h : ∃ l ∈ ls, hasText l = true
  · obtain ⟨l, hl, ht⟩ := h
    intro c hc
    exact isIndent_indentOf l c ((commonIndent_isPrefix hl ht).subset hc)
  · have hnone : ∀ l ∈ ls, hasText l = false :=
      fun l hl ↦ Bool.eq_false_iff.2 fun ht ↦ h ⟨l, hl, ht⟩
    rw [commonIndent_of_forall hnone]
    exact nofun

/-- Lines behind some indentation have that much more in common. -/
theorem commonIndent_indented {pre : List Char} (hpre : IsIndent pre) {ls : List (List Char)}
    (hls : NoPadding ls) (h : ∃ l ∈ ls, hasText l = true) :
    commonIndent (ls.map (indented pre)) = pre ++ commonIndent ls := by
  have hfilter : ((ls.map (indented pre)).filter hasText).map indentOf =
      ((ls.filter hasText).map indentOf).map (pre ++ ·) := by
    have hcongr : ls.filter (hasText ∘ indented pre) = ls.filter hasText :=
      List.filter_congr fun l hl ↦ hasText_indented hpre (hls l hl)
    rw [List.filter_map, hcongr, List.map_map, List.map_map]
    refine List.map_congr_left fun l hl ↦ ?_
    have hl := ne_nil_of_hasText (List.mem_filter.1 hl).2
    rw [Function.comp_apply, Function.comp_apply, indented, if_neg hl, indentOf_append hpre]
  obtain ⟨l, hl, ht⟩ := h
  have hmem : indentOf l ∈ (ls.filter hasText).map indentOf :=
    List.mem_map_of_mem (List.mem_filter.2 ⟨hl, ht⟩)
  obtain ⟨i, is, hi⟩ := List.exists_cons_of_ne_nil (List.ne_nil_of_mem hmem)
  rw [hi, List.map_cons] at hfilter
  rw [commonIndent_eq hfilter, commonIndent_eq hi, foldl_commonStart_append]

/-! ## Dedented lines -/

/-- Lines that have no indentation in common. -/
structure IsDedented (ls : List (List Char)) : Prop where
  commonIndent : commonIndent ls = []
  noPadding : NoPadding ls

theorem dedentLines_eq (ls : List (List Char)) :
    dedentLines ls =
      ls.map fun l ↦ if hasText l then l.drop (commonIndent ls).length else [] := by
  rw [dedentLines]
  refine List.map_congr_left fun l _ ↦ ?_
  rw [hasText]
  cases l.all isIndentChar <;> rfl

theorem dedentLines_of_noPadding {ls : List (List Char)} (hls : NoPadding ls) :
    dedentLines ls = ls.map (·.drop (commonIndent ls).length) := by
  rw [dedentLines_eq]
  refine List.map_congr_left fun l hl ↦ ?_
  by_cases ht : hasText l
  · rw [if_pos ht]
  · rw [if_neg ht, hls l hl (Bool.eq_false_iff.2 ht), List.drop_nil]

/-- What is left of a line that has text, behind what was taken away, is the line. -/
theorem commonIndent_append_drop {ls : List (List Char)} {l : List Char} (hl : l ∈ ls)
    (h : hasText l = true) : commonIndent ls ++ l.drop (commonIndent ls).length = l := by
  have hle : commonIndent ls <+: l :=
    (commonIndent_isPrefix hl h).trans (List.takeWhile_prefix isIndentChar)
  exact List.prefix_iff_eq_append.1 hle

theorem hasText_drop {ls : List (List Char)} {l : List Char} (hl : l ∈ ls)
    (h : hasText l = true) : hasText (l.drop (commonIndent ls).length) = true := by
  rw [← hasText_append (isIndent_commonIndent ls), commonIndent_append_drop hl h, h]

theorem noPadding_dedentLines (ls : List (List Char)) : NoPadding (dedentLines ls) := by
  rw [dedentLines_eq]
  intro d hd hpad
  obtain ⟨l, hl, rfl⟩ := List.mem_map.1 hd
  by_cases ht : hasText l
  · rw [if_pos ht, hasText_drop hl ht] at hpad
    cases hpad
  · rw [if_neg ht]

/-- Lines are what is left of them, behind what they had in common. -/
theorem map_indented_dedentLines {ls : List (List Char)} (hls : NoPadding ls) :
    (dedentLines ls).map (indented (commonIndent ls)) = ls := by
  rw [dedentLines_eq, List.map_map]
  refine (List.map_congr_left fun l hl ↦ ?_).trans (List.map_id ls)
  rw [Function.comp_apply, id]
  by_cases ht : hasText l
  · rw [if_pos ht, indented, if_neg (ne_nil_of_hasText (hasText_drop hl ht)),
      commonIndent_append_drop hl ht]
  · rw [if_neg ht, hls l hl (Bool.eq_false_iff.2 ht), indented_nil]

theorem isDedented_dedentLines {ls : List (List Char)} (hls : NoPadding ls) :
    IsDedented (dedentLines ls) := by
  refine ⟨?_, noPadding_dedentLines ls⟩
  by_cases h : ∃ d ∈ dedentLines ls, hasText d = true
  · -- Put back, the common indentation is there once, so it cannot be left in the lines as well.
    have hcommon := commonIndent_indented (isIndent_commonIndent ls) (noPadding_dedentLines ls) h
    rw [map_indented_dedentLines hls] at hcommon
    exact List.append_right_eq_self.1 hcommon.symm
  · exact commonIndent_of_forall fun d hd ↦ Bool.eq_false_iff.2 fun ht ↦ h ⟨d, hd, ht⟩

/-- Dedented lines come back from behind any indentation. -/
theorem dedentLines_indented {pre : List Char} (hpre : IsIndent pre) {ls : List (List Char)}
    (hls : IsDedented ls) : dedentLines (ls.map (indented pre)) = ls := by
  rw [dedentLines_eq, List.map_map]
  refine (List.map_congr_left fun l hl ↦ ?_).trans (List.map_id ls)
  rw [Function.comp_apply, id, hasText_indented hpre (hls.noPadding l hl)]
  by_cases ht : hasText l
  · have hcommon := commonIndent_indented hpre hls.noPadding ⟨l, hl, ht⟩
    rw [hls.commonIndent, List.append_nil] at hcommon
    rw [if_pos ht, hcommon, indented, if_neg (ne_nil_of_hasText ht), List.drop_left]
  · rw [if_neg ht, hls.noPadding l hl (Bool.eq_false_iff.2 ht)]

/-! ## Outdented lines -/

/-- What lines have in common when the blanks at their ends are gone. -/
def sharedIndent (ls : List (List Char)) : List Char := commonIndent (ls.map trimEnd)

/-- Lines without blanks at their ends and without the indentation that they then share. -/
def outdented (ls : List (List Char)) : List (List Char) := dedentLines (ls.map trimEnd)

theorem IsIndent.ink {p : List Char} (h : IsIndent p) : ink p = [] := ink_eq_nil.2 h.isBlank

theorem noPadding_map_trimEnd (ls : List (List Char)) : NoPadding (ls.map trimEnd) := by
  intro l hl hpad
  obtain ⟨m, -, rfl⟩ := List.mem_map.1 hl
  have hindent : IsIndent (trimEnd m) := by
    intro c hc
    rw [hasText, Bool.not_eq_false', List.all_eq_true] at hpad
    exact hpad c hc
  exact eq_nil_of_endsBlank (endsBlank_trimEnd m) hindent.ink

theorem outdented_eq (ls : List (List Char)) :
    outdented ls = ls.map fun l ↦ (trimEnd l).drop (sharedIndent ls).length := by
  rw [outdented, dedentLines_of_noPadding (noPadding_map_trimEnd ls), List.map_map]
  rfl

theorem isDedented_outdented (ls : List (List Char)) : IsDedented (outdented ls) :=
  isDedented_dedentLines (noPadding_map_trimEnd ls)

variable {ls : List (List Char)} {l : List Char}

/-- A line with ink starts with what all lines share. -/
theorem sharedIndent_append_drop (hl : l ∈ ls) (h : ink l ≠ []) :
    sharedIndent ls ++ (trimEnd l).drop (sharedIndent ls).length = trimEnd l := by
  have hmem : trimEnd l ∈ ls.map trimEnd := List.mem_map_of_mem hl
  apply commonIndent_append_drop hmem
  by_contra ht
  have hnil := noPadding_map_trimEnd ls _ hmem (Bool.eq_false_iff.2 ht)
  rw [← ink_trimEnd, hnil] at h
  exact h rfl

theorem sharedIndent_isPrefix (hl : l ∈ ls) (h : ink l ≠ []) : sharedIndent ls <+: l := by
  have hle : sharedIndent ls <+: trimEnd l := ⟨_, sharedIndent_append_drop hl h⟩
  exact hle.trans (isPrefix_dropEndWhile isBlank l)

theorem ink_drop_sharedIndent (hl : l ∈ ls) :
    ink ((trimEnd l).drop (sharedIndent ls).length) = ink l := by
  by_cases h : ink l = []
  · have hnil : trimEnd l = [] :=
      eq_nil_of_endsBlank (endsBlank_trimEnd l) ((ink_trimEnd l).trans h)
    rw [hnil, List.drop_nil, h]
    rfl
  · have hshared : ink (sharedIndent ls) = [] := (isIndent_commonIndent _).ink
    conv_rhs => rw [← ink_trimEnd, ← sharedIndent_append_drop hl h, ink_append, hshared,
      List.nil_append]

theorem endsBlank_of_mem_outdented (h : l ∈ outdented ls) : endsBlank l = false := by
  rw [outdented_eq] at h
  obtain ⟨m, -, rfl⟩ := List.mem_map.1 h
  exact endsBlank_drop (endsBlank_trimEnd m) _

theorem flatMap_ink_outdented (ls : List (List Char)) :
    (outdented ls).flatMap ink = ls.flatMap ink := by
  rw [outdented_eq, List.flatMap_map]
  exact List.flatMap_congr fun l hl ↦ ink_drop_sharedIndent hl

theorem isInked_outdented (h : IsInked ls) : IsInked (outdented ls) := by
  rw [outdented_eq]
  exact h.map fun l hl ↦ ink_drop_sharedIndent hl

theorem ink_indented {pre : List Char} (hpre : IsIndent pre) (l : List Char) :
    ink (indented pre l) = ink l := by
  cases l with
  | nil => rfl
  | cons c l => rw [indented_cons, ink_append, hpre.ink, List.nil_append]

/-- Lines that have nothing left to lose come back from behind any indentation. -/
theorem outdented_indented {pre : List Char} (hpre : IsIndent pre) (hls : IsDedented ls)
    (h : ∀ l ∈ ls, endsBlank l = false) : outdented (ls.map (indented pre)) = ls := by
  have htrim : (ls.map (indented pre)).map trimEnd = ls.map (indented pre) := by
    rw [List.map_map]
    refine List.map_congr_left fun l hl ↦ ?_
    rw [Function.comp_apply, indented]
    split
    next => rfl
    next hne => exact trimEnd_eq_self ((endsBlank_append pre hne).trans (h l hl))
  rw [outdented, htrim, dedentLines_indented hpre hls]

end JavaOutline.Text
