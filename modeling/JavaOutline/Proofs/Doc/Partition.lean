import JavaOutline.Proofs.Doc.RoundTrip
import JavaOutline.Proofs.Text.Ink

/-! # Reading parts the lines of a comment

The lines in front of the first tag line are the body, and each tag line opens a tag that takes all
lines up to the next one.  Only blanks are dropped on the way, so body and tags together have the
ink of the lines (`Doc.read_partitions`). -/

namespace JavaOutline

open Text

/-- The tag's mark, its name and its value. -/
def Tag.content (t : Tag) : List Char := '@' :: t.name.toList ++ t.value.toList

namespace Doc

/-- The lines of the body, none if there is none. -/
def bodyLines (d : Doc) : List (List Char) := d.body.elim [] fun c ↦ lines c.toList

/-- The body, if there is one, and behind it the tags. -/
def content (d : Doc) : List Char := (d.body.getD "").toList ++ d.tags.flatMap Tag.content

/-- The lines that start a tag, each with its index. -/
def openings (ls : List (List Char)) : List (List Char × Nat) :=
  ls.zipIdx.filter fun p ↦ startsTag p.1

/-- The name behind the `@` of a tag line: the longest run of name characters. -/
def nameIn (l : List Char) : List Char := l.tail.takeWhile isNameChar

theorem isSome_tagLine? (l : List Char) : (tagLine? l).isSome = startsTag l := by
  rw [← Option.not_isNone, ← isContinuation, isContinuation_eq_not_startsTag, Bool.not_not]

/-! ## Names and places -/

/-- The tags stand on the tag lines; the index of a line goes up with its number. -/
theorem map_tagsFrom (n : Int) (i : Nat) (ls : List (List Char)) :
    (tagsFrom (n + i) ls).map (fun t ↦ (t.line, t.name.toList)) =
      ((ls.zipIdx i).filter fun p ↦ startsTag p.1).map fun p ↦ (n + p.2, nameIn p.1) := by
  induction ls generalizing i with
  | nil => rfl
  | cons l ls ih =>
    have hnext : n + (i + 1 : Nat) = n + (i : Int) + 1 := by omega
    have ih := ih (i + 1)
    rw [hnext] at ih
    have hl := isSome_tagLine? l
    rw [tagsFrom, List.zipIdx_cons, List.filter_cons, ← hl]
    cases ht : tagLine? l with
    | none =>
      rw [Option.isSome_none, if_neg Bool.false_ne_true]
      exact ih
    | some p =>
      obtain ⟨-, hname, -⟩ := of_tagLine? ht
      rw [Option.isSome_some, if_pos rfl, List.map_cons, List.map_cons, ih, String.toList_ofList,
        hname, nameIn]

theorem length_openings (ls : List (List Char)) : (openings ls).length = ls.countP startsTag := by
  rw [openings, ← List.countP_eq_length_filter]
  conv_rhs => rw [← List.zipIdx_map_fst 0 ls, List.countP_map]
  rfl

/-! ## Ink -/

theorem ink_of_tagLine? {l n v : List Char} (h : tagLine? l = some (n, v)) :
    ink l = ink ('@' :: n) ++ ink v := by
  obtain ⟨-, -, gap, rfl, hgap⟩ := of_tagLine? h
  rw [ink_append, ink_append, ink_eq_nil.2 hgap, List.append_nil]

theorem ink_tagValue (first : List Char) (more : List (List Char)) :
    ink (tagValue first more) = ink first ++ more.flatMap ink := by
  have htrim : (more.map trim).flatMap ink = more.flatMap ink := by
    rw [List.flatMap_map]
    exact congrArg (List.flatMap · more) (funext ink_trim)
  rw [tagValue, ink_unlines, flatMap_ink_trimEmptyLines, List.flatMap_cons, htrim]

/-- The tags have the ink of all lines from the first tag line on. -/
theorem ink_tagsFrom (n : Int) (ls : List (List Char)) :
    ink ((tagsFrom n ls).flatMap Tag.content) = (ls.dropWhile isContinuation).flatMap ink := by
  induction ls generalizing n with
  | nil => rfl
  | cons l ls ih =>
    rw [tagsFrom]
    cases ht : tagLine? l with
    | none =>
      have hl := isContinuation_iff.2 ht
      rw [List.dropWhile_cons_of_pos hl, ← ih]
    | some p =>
      obtain ⟨name, v⟩ := p
      have hl := not_isContinuation_of_tagLine? ht
      have hrest := List.takeWhile_append_dropWhile (p := isContinuation) (l := ls)
      rw [List.dropWhile_cons_of_neg hl, List.flatMap_cons, ink_append, ih, Tag.content,
        String.toList_ofList, String.toList_ofList, ink_append, ink_tagValue, List.flatMap_cons,
        ink_of_tagLine? ht, List.append_assoc, List.append_assoc, ← List.flatMap_append, hrest,
        List.append_assoc]

/-- The body has the ink of all lines before the first tag line. -/
theorem ink_bodyOf (ls : List (List Char)) :
    ink ((bodyOf ls).getD "").toList = (ls.takeWhile isContinuation).flatMap ink := by
  rw [← flatMap_ink_trimEmptyLines, ← ink_unlines, bodyOf]
  split
  · next h => rw [h]; rfl
  · next h => rw [h, Option.getD_some, String.toList_ofList]

theorem ink_content_ofLines (ls : List (List Char)) (n : Int) :
    ink (ofLines ls n).content = ink ls.flatten := by
  have hls : ink ls.flatten = ls.flatMap ink := by
    rw [ink, List.filter_flatten, List.flatMap]
    rfl
  rw [content, ofLines, ink_append, ink_bodyOf, ink_tagsFrom, ← List.flatMap_append,
    List.takeWhile_append_dropWhile, hls]

theorem startsTag_of_mem_bodyLines {ls : List (List Char)} (hc : AreClean ls) {n : Int}
    {l : List Char} (hl : l ∈ (ofLines ls n).bodyLines) : startsTag l = false := by
  rw [bodyLines, ofLines] at hl
  cases hb : bodyOf ls with
  | none =>
    rw [hb] at hl
    cases hl
  | some c =>
    rw [hb] at hl
    exact ((isBodyText_of_bodyOf hc hb).2 l hl).2

/-- Body and tags say what the lines of the comment say, apart from blanks.  There is a tag for each
line that starts one, in order, with the number of that line and the longest name that can be read
on it, and no such line is left in the body. -/
theorem read_partitions (s : String) (n : Int) :
    ink (read s n).content = ink (commentLines s.toList).flatten ∧
      (read s n).tags.length = (commentLines s.toList).countP startsTag ∧
      (read s n).tags.map (fun t ↦ (t.line, t.name.toList)) =
        (openings (commentLines s.toList)).map (fun p ↦ (n + p.2, nameIn p.1)) ∧
      ∀ l ∈ (read s n).bodyLines, startsTag l = false := by
  have htags := map_tagsFrom n 0 (commentLines s.toList)
  rw [Int.natCast_zero, Int.add_zero, ← openings] at htags
  have hcount := congrArg List.length htags
  rw [List.length_map, List.length_map, length_openings] at hcount
  refine ⟨ink_content_ofLines _ n, hcount, htags, ?_⟩
  intro l hl
  exact startsTag_of_mem_bodyLines (areClean_commentLines s.toList) hl

/-- A body with an `@` inside a line, a name that ends at an `@`, and a value that starts on a later
line than its name. -/
theorem read_partitions_sample : ∃ s : String,
    s = "/**\n * a @b\n *\n * @x@y  1\n * @z\n *   2 */" ∧
      (read s 7).content = "a @b@x@y  1@z2".toList ∧
      "a @b".toList ∈ (read s 7).bodyLines ∧ startsTag "a @b".toList = false ∧
      (read s 7).tags.map (fun t ↦ (t.line, t.name.toList)) = [(10, ['x']), (11, ['z'])] := by
  obtain ⟨s, hs⟩ : ∃ s : String, s = "/**\n * a @b\n *\n * @x@y  1\n * @z\n *   2 */" := ⟨_, rfl⟩
  obtain ⟨-, -, htags, hbody⟩ := read_partitions s 7
  have hmem : "a @b".toList ∈ (read s 7).bodyLines := by
    rw [hs]
    decide +kernel
  have hopen : (openings (commentLines s.toList)).map (fun p ↦ ((7 : Int) + p.2, nameIn p.1)) =
      [(10, ['x']), (11, ['z'])] := by
    rw [hs]
    decide +kernel
  refine ⟨s, hs, ?_, hmem, hbody _ hmem, htags.trans hopen⟩
  rw [hs]
  decide +kernel

end Doc

end JavaOutline
