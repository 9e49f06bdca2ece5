import JavaOutline.Doc.Comment
import JavaOutline.Proofs.Text.Lines

/-! # The lines that tags stand on

The line that a tag is given when a comment is read is the line of the text that its name stands on,
and each tag stands below the one before it. -/

namespace JavaOutline

open Text

/-- The name of the tag stands on the tag's line of a text. -/
def Tag.StandsIn (src : List Char) (t : Tag) : Prop :=
  ∃ (i : Nat) (l : List Char), t.line = i + 1 ∧ (lines src)[i]? = some l ∧
    '@' :: t.name.toList <:+: l

namespace Doc

theorem isInfix_dropStar (l : List Char) : dropStar l <:+: l := by
  refine List.IsInfix.trans ?_ (isInfix_trim l)
  rw [dropStar]
  split
  · next r hr =>
    rw [hr]
    exact (isPrefix_dropEndWhile isBlank r).isInfix.trans
      ((List.suffix_cons ' ' r).trans (List.suffix_cons '*' _)).isInfix
  · next r _ hr =>
    rw [hr]
    exact (isPrefix_dropEndWhile isBlank r).isInfix.trans (List.suffix_cons '*' r).isInfix
  · exact (isPrefix_dropEndWhile isBlank _).isInfix

theorem isContinuation_iff {l : List Char} : isContinuation l = true ↔ tagLine? l = none :=
  Option.isNone_iff_eq_none

theorem not_isContinuation_of_tagLine? {l n v : List Char} (h : tagLine? l = some (n, v)) :
    ¬ isContinuation l = true := by
  rw [isContinuation_iff, h]
  exact Option.some_ne_none _

/-- A tag line is `@`, the longest run of name characters, which is not empty, at most blanks, and
the first line of the tag's value. -/
theorem of_tagLine? {l n v : List Char} (h : tagLine? l = some (n, v)) :
    n ≠ [] ∧ n = l.tail.takeWhile isNameChar ∧
      ∃ gap, l = '@' :: n ++ gap ++ v ∧ ∀ c ∈ gap, isBlank c = true := by
  rw [tagLine?.eq_def] at h
  split at h
  · next r =>
    have hr := List.takeWhile_append_dropWhile (p := isNameChar) (l := r)
    dsimp only at h
    split at h
    · cases h
    · next hne =>
      have hne : r.takeWhile isNameChar ≠ [] := by simpa using hne
      split at h
      · next hd =>
        obtain ⟨rfl, rfl⟩ := Prod.mk.inj (Option.some.inj h)
        rw [hd, List.append_nil] at hr
        refine ⟨hne, rfl, [], ?_, List.forall_mem_nil _⟩
        rw [List.append_nil, List.append_nil, hr]
      · next c w hd =>
        obtain ⟨rfl, rfl⟩ := Prod.mk.inj (Option.some.inj h)
        rw [hd] at hr
        by_cases hc : isBlank c = true
        · refine ⟨hne, rfl, [c], ?_, fun d hd ↦ List.mem_singleton.1 hd ▸ hc⟩
          rw [if_pos hc, List.append_assoc, List.cons_append, List.singleton_append, hr]
        · refine ⟨hne, rfl, [], ?_, List.forall_mem_nil _⟩
          rw [if_neg hc, List.append_nil, List.cons_append, hr]
  · cases h

theorem of_mem_tagsFrom {n : Int} {ls : List (List Char)} {t : Tag} (ht : t ∈ tagsFrom n ls) :
    ∃ (j : Nat) (l : List Char), t.line = n + j ∧ ls[j]? = some l ∧
      '@' :: t.name.toList <+: l := by
  induction ls generalizing n with
  | nil => exact absurd ht List.not_mem_nil
  | cons l ls ih =>
    have below (h : t ∈ tagsFrom (n + 1) ls) : ∃ (j : Nat) (m : List Char), t.line = n + j ∧
        (l :: ls)[j]? = some m ∧ '@' :: t.name.toList <+: m := by
      obtain ⟨j, m, hj, hm, hp⟩ := ih h
      exact ⟨j + 1, m, by rw [hj]; omega, hm, hp⟩
    rw [tagsFrom] at ht
    split at ht
    · exact below ht
    · next name v hl =>
      rcases List.mem_cons.1 ht with rfl | ht
      · obtain ⟨-, -, gap, hgap, -⟩ := of_tagLine? hl
        refine ⟨0, l, by simp, rfl, gap ++ v, ?_⟩
        rw [hgap, String.toList_ofList, List.append_assoc]
      · exact below ht

/-- Tags are in the order of their lines, and no two share a line. -/
theorem pairwise_tagsFrom (n : Int) (ls : List (List Char)) :
    (tagsFrom n ls).Pairwise (·.line < ·.line) := by
  induction ls generalizing n with
  | nil => exact .nil
  | cons l ls ih =>
    rw [tagsFrom]
    split
    · exact ih (n + 1)
    · refine .cons (fun t ht ↦ ?_) (ih (n + 1))
      obtain ⟨j, _, hj, _⟩ := of_mem_tagsFrom ht
      show n < t.line
      omega

theorem pairwise_tags (s : String) (n : Int) : (read s n).tags.Pairwise (·.line < ·.line) :=
  pairwise_tagsFrom n (commentLines s.toList)

/-- The lines of a documentation comment are those between its marks. -/
theorem exists_of_isDocComment {s : List Char} (h : isDocComment s) :
    ∃ inner, s = ['/', '*', '*'] ++ inner ++ ['*', '/'] ∧
      commentLines s = (lines inner).map dropStar := by
  simp only [isDocComment, Bool.and_eq_true, List.isPrefixOf_iff_prefix,
    List.isSuffixOf_iff_suffix, decide_eq_true_eq] at h
  obtain ⟨⟨⟨r, rfl⟩, hs⟩, hl⟩ := h
  have hr : ['*', '/'] <:+ r :=
    List.suffix_of_suffix_length_le hs (List.suffix_append _ r) (by
      simp only [List.length_append, List.length_cons, List.length_nil] at hl ⊢
      omega)
  obtain ⟨inner, rfl⟩ := hr
  refine ⟨inner, (List.append_assoc _ _ _).symm, ?_⟩
  have ht : trim (['/', '*', '*'] ++ (inner ++ ['*', '/'])) =
      ['/', '*', '*'] ++ (inner ++ ['*', '/']) :=
    trim_eq_self (by rfl) (by
      rw [← List.append_assoc, endsBlank_append _ (by simp)]
      rfl)
  rw [commentLines, ht]
  simp [dropStart, dropEnd]

/-- The tags of a comment that is part of a text stand in the text, if the comment is read from the
line that it starts on. -/
theorem standsIn_of_mem_tags {pre s : List Char} (hs : isDocComment s) {t : Tag}
    (ht : t ∈ (read (String.ofList s) (pre.count '\n' + 1)).tags) (post : List Char) :
    t.StandsIn (pre ++ s ++ post) := by
  rw [read, String.toList_ofList] at ht
  obtain ⟨inner, rfl, hi⟩ := exists_of_isDocComment hs
  rw [hi] at ht
  obtain ⟨j, l, hj, hl, hp⟩ := of_mem_tagsFrom ht
  rw [List.getElem?_map, Option.map_eq_some_iff] at hl
  obtain ⟨m, hm, rfl⟩ := hl
  obtain ⟨k, hk, hmk⟩ := lines_append_append (pre ++ ['/', '*', '*']) hm (['*', '/'] ++ post)
  refine ⟨pre.count '\n' + j, k, by rw [hj]; push_cast; omega, ?_,
    (hp.isInfix.trans (isInfix_dropStar m)).trans hmk⟩
  simpa using hk

end Doc

end JavaOutline
