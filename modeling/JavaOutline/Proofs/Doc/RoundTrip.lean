import JavaOutline.Proofs.Doc.TagLines
import JavaOutline.Proofs.Doc.Written

/-! # Documentation that is read back as it was written

A documentation block is read back as the body and the tags it was written from exactly if these
have the shape of something read, and no line of a tag's value after the first looks like something
else at the start of a line: a star there is taken for the star of the block, and a tag's name for a
tag of its own.

Everything read has the right shape (`Doc.isReadable_ofLines`), so for what was read once the second
condition decides alone. -/

namespace JavaOutline

open Text Sink

/-! ## Tag lines -/

namespace Doc

/-- The line starts with `@` and a character of a name. -/
def startsTag : List Char → Bool
  | '@' :: c :: _ => isNameChar c
  | _ => false

theorem isContinuation_eq_not_startsTag (l : List Char) : isContinuation l = !startsTag l := by
  match l with
  | [] => rfl
  | c :: r =>
    by_cases hc : c = '@'
    · subst hc
      cases r with
      | nil => rfl
      | cons c r =>
        by_cases hc : isNameChar c
        · simp only [isContinuation, tagLine?, startsTag, List.takeWhile_cons_of_pos hc,
            List.dropWhile_cons_of_pos hc, hc]
          cases r.dropWhile isNameChar <;> rfl
        · simp [isContinuation, tagLine?, startsTag, hc]
    · simp [isContinuation, tagLine?, startsTag, hc]

theorem tagLine?_name {n : List Char} (hn : n ≠ []) (h : ∀ c ∈ n, isNameChar c) :
    tagLine? ('@' :: n) = some (n, []) := by
  rw [tagLine?, List.takeWhile_eq_self_iff.2 h, List.dropWhile_eq_nil_iff.2 h]
  simp [hn]

theorem tagLine?_name_space {n : List Char} (hn : n ≠ []) (h : ∀ c ∈ n, isNameChar c)
    (v : List Char) : tagLine? ('@' :: n ++ ' ' :: v) = some (n, v) := by
  have hs : isNameChar ' ' = false := by decide
  rw [List.cons_append, tagLine?, List.takeWhile_append_of_pos h, List.dropWhile_append_of_pos h]
  simp [hn, hs]

/-- Lines that go on with what is before them start no tag. -/
theorem tagsFrom_append_of_continuation {ls : List (List Char)}
    (h : ∀ l ∈ ls, isContinuation l = true) (ms : List (List Char)) (n : Int) :
    tagsFrom n (ls ++ ms) = tagsFrom (n + ls.length) ms := by
  induction ls generalizing n with
  | nil => simp
  | cons l ls ih =>
    obtain ⟨hl, hls⟩ := List.forall_mem_cons.1 h
    rw [List.cons_append, tagsFrom, isContinuation_iff.1 hl]
    simp only [ih hls, List.length_cons, Int.natCast_add, Int.natCast_one]
    congr 1
    omega

end Doc

/-! ## Shapes -/

namespace Tag

/-- What a tag says, apart from its place. -/
def entry (t : Tag) : String × String := (t.name, t.value)

/-- The name is not empty and has neither a blank nor `@` in it. -/
def IsNamed (t : Tag) : Prop := t.name ≠ "" ∧ ∀ c ∈ t.name.toList, isBlank c = false ∧ c ≠ '@'

/-- The value is empty, or its first and last lines are not, no line ends with a blank and no line
after the first starts with one. -/
def IsTidy (t : Tag) : Prop :=
  t.value = "" ∨ IsFilled (lines t.value.toList) ∧
    (∀ l ∈ lines t.value.toList, endsBlank l = false) ∧
    ∀ l ∈ (lines t.value.toList).tail, startsBlank l = false

/-- No line of the value after the first starts with a star or like a tag. -/
def IsPlain (t : Tag) : Prop :=
  ∀ l ∈ (lines t.value.toList).tail, l.head? ≠ some '*' ∧ Doc.startsTag l = false

end Tag

/-- The first and the last line are not empty, and no line ends with a blank or starts a tag. -/
def IsBodyText (c : String) : Prop :=
  IsFilled (lines c.toList) ∧
    ∀ l ∈ lines c.toList, endsBlank l = false ∧ Doc.startsTag l = false

namespace Header

/-- Body and tags have the shape of something read. -/
structure IsReadable (h : Header) : Prop where
  body : ∀ c, h.comment = some c → IsBodyText c
  named : ∀ t ∈ h.tags, t.IsNamed
  tidy : ∀ t ∈ h.tags, t.IsTidy

/-- Body and tags can be written and read back. -/
structure IsWritable (h : Header) : Prop extends IsReadable h where
  plain : ∀ t ∈ h.tags, t.IsPlain

end Header

/-- A comment says the same as a header, apart from the places of the tags. -/
def Doc.Agrees (d : Doc) (h : Header) : Prop :=
  d.body = h.comment ∧ d.tags.map Tag.entry = h.tags.map Tag.entry

/-- A header with what a comment says. -/
def Header.withDoc (h : Header) (d : Doc) : Header := { h with comment := d.body, tags := d.tags }

theorem Header.agrees_withDoc (h : Header) (d : Doc) : d.Agrees (h.withDoc d) := ⟨rfl, rfl⟩

namespace Doc

/-! ## The shape of what is read -/

/-- What is read from the lines of a comment. -/
def ofLines (ls : List (List Char)) (n : Int) : Doc := { body := bodyOf ls, tags := tagsFrom n ls }

theorem read_eq_ofLines (s : String) (n : Int) : read s n = ofLines (commentLines s.toList) n := rfl

/-- The lines of a comment: no line feed in them, no blank at their end. -/
def AreClean (ls : List (List Char)) : Prop := ∀ l ∈ ls, '\n' ∉ l ∧ endsBlank l = false

theorem areClean_commentLines (s : List Char) : AreClean (commentLines s) :=
  fun _ hl ↦ of_mem_commentLines hl

theorem isBodyText_of_bodyOf {ls : List (List Char)} (hc : AreClean ls) {c : String}
    (h : bodyOf ls = some c) : IsBodyText c := by
  set body := trimEmptyLines (ls.takeWhile isContinuation) with hbody
  have hmem : ∀ l ∈ body, l ∈ ls.takeWhile isContinuation :=
    fun l hl ↦ mem_of_mem_trimEmptyLines hl
  have hls : ∀ l ∈ body, l ∈ ls := fun l hl ↦ (List.takeWhile_prefix _).subset (hmem l hl)
  have hne : body ≠ [] := by
    intro hb
    rw [bodyOf, ← hbody, hb] at h
    simp [unlines, joinWith] at h
  have hlines : lines c.toList = body := by
    rw [bodyOf, ← hbody] at h
    rw [← lines_unlines hne fun l hl ↦ (hc l (hls l hl)).1]
    split at h
    · simp at h
    · next hu => rw [← Option.some.inj h, hu, String.toList_ofList]
  refine ⟨hlines ▸ isFilled_trimEmptyLines _, fun l hl ↦ ?_⟩
  rw [hlines] at hl
  have ht := isContinuation_eq_not_startsTag l ▸ List.mem_takeWhile_imp (hmem l hl)
  exact ⟨(hc l (hls l hl)).2, by simpa using ht⟩

theorem isTidy_of_tagValue {f : List Char} {ls : List (List Char)} (hf : '\n' ∉ f)
    (hb : endsBlank f = false) (hc : AreClean ls) {t : Tag}
    (h : t.value = String.ofList (tagValue f ls)) : t.IsTidy := by
  set value := trimEmptyLines (f :: ls.map trim) with hvalue
  by_cases hne : value = []
  · left
    rw [h, tagValue, ← hvalue, hne]
    rfl
  · right
    have hmem : ∀ l ∈ value, l = f ∨ ∃ m ∈ ls, trim m = l := by
      intro l hl
      have hl := mem_of_mem_trimEmptyLines hl
      rw [List.mem_cons, List.mem_map] at hl
      exact hl
    have hlines : lines t.value.toList = value := by
      rw [h, tagValue, ← hvalue, String.toList_ofList, lines_unlines hne]
      intro l hl
      rcases hmem l hl with rfl | ⟨m, hm, rfl⟩
      · exact hf
      · exact fun hn ↦ (hc m hm).1 (mem_of_mem_trim hn)
    have htail : ∀ l ∈ value.tail, ∃ m ∈ ls, trim m = l := by
      intro l hl
      have hsub : value.tail.Sublist (ls.map trim) :=
        ((isPrefix_dropEndWhile _ _).sublist.trans (List.dropWhile_sublist _)).tail
      exact List.mem_map.1 (hsub.subset hl)
    rw [hlines]
    refine ⟨isFilled_trimEmptyLines _, fun l hl ↦ ?_, fun l hl ↦ ?_⟩
    · rcases hmem l hl with rfl | ⟨m, _, rfl⟩
      · exact hb
      · exact endsBlank_trim m
    · obtain ⟨m, _, rfl⟩ := htail l hl
      exact startsBlank_trim m

/-- Names and values that are read have the shape of such. -/
theorem isNamed_and_isTidy_of_mem_tagsFrom {ls : List (List Char)} (hc : AreClean ls) {n : Int}
    {t : Tag} (ht : t ∈ tagsFrom n ls) : t.IsNamed ∧ t.IsTidy := by
  induction ls generalizing n with
  | nil => simp [tagsFrom] at ht
  | cons l ls ih =>
    obtain ⟨⟨hln, hlb⟩, hls⟩ := List.forall_mem_cons.1 hc
    rw [tagsFrom] at ht
    split at ht
    · exact ih hls ht
    · next name v hl =>
      rcases List.mem_cons.1 ht with rfl | ht
      · obtain ⟨hne, hname, gap, hgap, -⟩ := of_tagLine? hl
        have hv : endsBlank v = false := by
          by_cases hv : v = []
          · rw [hv, endsBlank_nil]
          · rw [← endsBlank_append _ hv, ← hgap, hlb]
        have hvn : '\n' ∉ v := fun h ↦ hln (hgap ▸ List.mem_append_right _ h)
        have hmore : AreClean (ls.takeWhile isContinuation) :=
          fun m hm ↦ hls m ((List.takeWhile_prefix _).subset hm)
        refine ⟨⟨by simpa using hne, fun c hc ↦ ?_⟩, isTidy_of_tagValue hvn hv hmore rfl⟩
        have hc : isNameChar c = true :=
          List.mem_takeWhile_imp (hname ▸ String.toList_ofList ▸ hc)
        simpa [isNameChar] using hc
      · exact ih hls ht

/-- A header that agrees with something read is readable. -/
theorem Agrees.isReadable {ls : List (List Char)} (hc : AreClean ls) {n : Int} {h : Header}
    (ha : (ofLines ls n).Agrees h) : h.IsReadable := by
  have hentry : ∀ t ∈ h.tags, ∃ u ∈ tagsFrom n ls, u.name = t.name ∧ u.value = t.value := by
    intro t ht
    have hm : t.entry ∈ (tagsFrom n ls).map Tag.entry := ha.2 ▸ List.mem_map_of_mem ht
    obtain ⟨u, hu, he⟩ := List.mem_map.1 hm
    exact ⟨u, hu, Prod.mk.inj he⟩
  refine ⟨fun c h ↦ isBodyText_of_bodyOf hc (ha.1.trans h), fun t ht ↦ ?_, fun t ht ↦ ?_⟩
  · obtain ⟨u, hu, hn, -⟩ := hentry t ht
    have hu := (isNamed_and_isTidy_of_mem_tagsFrom hc hu).1
    rwa [Tag.IsNamed, hn] at hu
  · obtain ⟨u, hu, -, hv⟩ := hentry t ht
    have hu := (isNamed_and_isTidy_of_mem_tagsFrom hc hu).2
    rwa [Tag.IsTidy, hv] at hu

/-! ## Tags that are read back -/

/-- The first line of a written tag is read as its name and the first line of its value, the others
lose their stars. -/
theorem docLines_of_isTidy {t : Tag} (hn : t.IsNamed) (ht : t.IsTidy) {f : List Char}
    {r : List (List Char)} (hl : lines t.value.toList = f :: r) :
    ∃ l, t.docLines.map dropStar = l :: r.map dropStar ∧ tagLine? l = some (t.name.toList, f) := by
  have hname : ∀ c ∈ t.name.toList, isNameChar c = true := fun c hc ↦ by
    simp [isNameChar, hn.2 c hc]
  have hne : t.name.toList ≠ [] := by simpa using hn.1
  have hline : '\n' ∉ [' ', '*', ' '] ++ '@' :: t.name.toList := by
    intro h
    have hb := (hn.2 '\n' (by simpa using h)).1
    simp at hb
  have hend : endsBlank ('@' :: t.name.toList) = false := by
    rw [endsBlank_cons _ hne]
    obtain ⟨m, c, hm⟩ := (List.eq_nil_or_concat' _).resolve_left hne
    rw [hm, endsBlank_concat]
    exact (hn.2 c (hm ▸ by simp)).1
  by_cases hv : t.value = ""
  · rw [hv] at hl
    obtain ⟨rfl, rfl⟩ := List.cons.inj hl
    refine ⟨'@' :: t.name.toList, ?_, tagLine?_name hne hname⟩
    have htext : t.text.toList = '@' :: t.name.toList := by
      rw [Tag.text, hv, if_pos (by rfl)]
      simp
    rw [Tag.docLines, htext, lines_of_notMem hline]
    exact congrArg (· :: []) ((dropStar_star _).trans (trimEnd_eq_self hend))
  · obtain ⟨⟨hf, -⟩, hb, -⟩ := ht.resolve_left hv
    have hf : f ≠ [] := fun hf' ↦ hf (by rw [hl, hf']; rfl)
    have hfb : endsBlank f = false := hb f (hl ▸ List.mem_cons_self)
    refine ⟨'@' :: t.name.toList ++ ' ' :: f, ?_, tagLine?_name_space hne hname f⟩
    have htext : [' ', '*', ' '] ++ t.text.toList =
        ([' ', '*', ' '] ++ '@' :: t.name.toList ++ [' ']) ++ t.value.toList := by
      rw [Tag.text, if_neg (by simpa using hv)]
      simp
    have hline' : '\n' ∉ [' ', '*', ' '] ++ '@' :: t.name.toList ++ [' '] := by
      simpa using hline
    rw [Tag.docLines, htext, lines_append hline', hl, List.modifyHead_cons, List.map_cons]
    congr 1
    have he : endsBlank ('@' :: t.name.toList ++ ' ' :: f) = false := by
      rw [endsBlank_append _ (by simp), endsBlank_cons _ hf, hfb]
    rw [← trimEnd_eq_self he, ← dropStar_star]
    simp

/-- The lines that reading finds for some tags up to the end of the block. -/
def tagLines (ts : List Tag) : List (List Char) := (ts.flatMap Tag.docLines).map dropStar ++ [[]]

theorem tagLines_cons (t : Tag) (ts : List Tag) :
    tagLines (t :: ts) = t.docLines.map dropStar ++ tagLines ts := by
  simp [tagLines]

/-- Between a tag and the next one there is nothing but the end of the block. -/
theorem takeWhile_tagLines {ts : List Tag} (hn : ∀ t ∈ ts, t.IsNamed) (ht : ∀ t ∈ ts, t.IsTidy) :
    ∀ l ∈ (tagLines ts).takeWhile isContinuation, l = [] := by
  cases ts with
  | nil =>
    intro l hl
    simpa [tagLines] using (List.takeWhile_prefix _).subset hl
  | cons t ts =>
    obtain ⟨l, hl, hs⟩ := docLines_of_isTidy (hn t List.mem_cons_self) (ht t List.mem_cons_self)
      (List.cons_head_tail (lines_ne_nil t.value.toList)).symm
    rw [tagLines_cons, hl, List.cons_append,
      List.takeWhile_cons_of_neg (not_isContinuation_of_tagLine? hs)]
    simp

/-- A value is put together again from its lines. -/
theorem tagValue_eq_of_isTidy {t : Tag} (ht : t.IsTidy) {f : List Char} {r : List (List Char)}
    (hl : lines t.value.toList = f :: r) {es : List (List Char)} (he : ∀ l ∈ es, l = []) :
    tagValue f (r ++ es) = t.value.toList := by
  have hes : es.map trim = es := by
    conv_rhs => rw [← List.map_id es]
    exact List.map_congr_left fun l hl ↦ by rw [he l hl]; rfl
  rw [tagValue, List.map_append, hes, ← List.cons_append, trimEmptyLines_append_of_forall _ he]
  by_cases hv : t.value = ""
  · rw [hv] at hl ⊢
    obtain ⟨rfl, rfl⟩ := List.cons.inj hl
    rfl
  · obtain ⟨hfill, hb, hs⟩ := ht.resolve_left hv
    rw [hl] at hfill hb hs
    have hr : r.map trim = r := by
      conv_rhs => rw [← List.map_id r]
      exact List.map_congr_left fun l hl ↦
        trim_eq_self (hs l hl) (hb l (List.mem_cons_of_mem f hl))
    rw [hr, trimEmptyLines_eq_self hfill, ← hl, unlines_lines]

/-- If a value is found in the lines that were written for it, none of them was taken for something
else: the value's lines are all there, and each is as long as it was. -/
theorem isPlain_of_tagValue_eq {t : Tag} (ht : t.IsTidy) {f : List Char} {r ls : List (List Char)}
    (hl : lines t.value.toList = f :: r) (hls : AreClean ls)
    (h : tagValue f ((r.map dropStar ++ ls).takeWhile isContinuation) = t.value.toList) :
    t.IsPlain := by
  by_cases hv : t.value = ""
  · rw [Tag.IsPlain, hv]
    simp
  obtain ⟨hfill, hb, hs⟩ := ht.resolve_left hv
  rw [Tag.IsPlain]
  rw [hl, List.tail_cons] at hs ⊢
  rw [hl] at hfill hb
  have hf : f ≠ [] := fun hf ↦ hfill.1 (by rw [hf]; rfl)
  set found := (r.map dropStar ++ ls).takeWhile isContinuation with hfound
  have hclean : AreClean (r.map dropStar ++ ls) := by
    intro l hl'
    rcases List.mem_append.1 hl' with hl' | hl'
    · obtain ⟨m, hm, rfl⟩ := List.mem_map.1 hl'
      have hm : m ∈ lines t.value.toList := hl ▸ List.mem_cons_of_mem f hm
      exact ⟨fun hc ↦ notMem_of_mem_lines hm (mem_of_mem_dropStar hc), endsBlank_dropStar m⟩
    · exact hls l hl'
  have hprefix : r <+: found.map trim := by
    rw [tagValue, trimEmptyLines_cons_of_ne_nil hf] at h
    have hlines := congrArg lines h
    rw [hl, lines_unlines (by simp)] at hlines
    · exact (List.cons.inj hlines).2 ▸ isPrefix_dropEndWhile _ _
    · intro l hl'
      rcases List.mem_cons.1 hl' with rfl | hl'
      · exact notMem_of_mem_lines (hl ▸ List.mem_cons_self)
      · obtain ⟨m, hm, rfl⟩ := List.mem_map.1 ((isPrefix_dropEndWhile _ _).subset hl')
        exact fun hc ↦ (hclean m ((List.takeWhile_prefix _).subset hm)).1 (mem_of_mem_trim hc)
  have htake : found.take r.length = r.map dropStar := by
    have hlen : r.length ≤ found.length := by simpa using hprefix.length_le
    have hp : found.take r.length <+: r.map dropStar ++ ls :=
      (List.take_prefix _ _).trans (List.takeWhile_prefix _)
    rw [List.prefix_iff_eq_take.1 hp]
    simp [hlen]
  have hr : ∀ l ∈ r, trim (dropStar l) = l := by
    have hr : r = (r.map dropStar).map trim := by
      conv_lhs => rw [List.prefix_iff_eq_take.1 hprefix, ← List.map_take, htake]
    rw [List.map_map] at hr
    exact List.map_inj_left.1 (hr.symm.trans (List.map_id r).symm)
  intro l hl'
  have hstar : l.head? ≠ some '*' := by
    intro hstar
    have h₁ := length_dropStar_lt hstar
    have h₂ := length_trim_le (dropStar l)
    rw [hr l hl'] at h₂
    omega
  refine ⟨hstar, ?_⟩
  have hc : isContinuation (dropStar l) = true := by
    have hm : dropStar l ∈ found :=
      (List.take_prefix r.length found).subset (htake ▸ List.mem_map_of_mem hl')
    exact List.mem_takeWhile_imp hm
  rw [dropStar_eq_self (hs l hl') (hb l (List.mem_cons_of_mem f hl')) hstar,
    isContinuation_eq_not_startsTag] at hc
  simpa using hc

theorem areClean_tagLines (ts : List Tag) : AreClean (tagLines ts) := by
  intro l hl
  rcases List.mem_append.1 hl with hl | hl
  · obtain ⟨m, hm, rfl⟩ := List.mem_map.1 hl
    obtain ⟨t, -, hm⟩ := List.mem_flatMap.1 hm
    exact ⟨fun hc ↦ notMem_of_mem_lines hm (mem_of_mem_dropStar hc), endsBlank_dropStar m⟩
  · simp_all

/-- The further lines of a plain value are read as they were written. -/
theorem map_dropStar_of_isPlain {t : Tag} (ht : t.IsTidy) (hp : t.IsPlain) {f : List Char}
    {r : List (List Char)} (hl : lines t.value.toList = f :: r) :
    r.map dropStar = r ∧ ∀ l ∈ r, isContinuation l = true := by
  rw [Tag.IsPlain, hl, List.tail_cons] at hp
  have hc : ∀ l ∈ r, isContinuation l = true := fun l hl ↦ by
    rw [isContinuation_eq_not_startsTag, (hp l hl).2]
    rfl
  refine ⟨?_, hc⟩
  by_cases hv : t.value = ""
  · rw [hv] at hl
    rw [← (List.cons.inj hl).2]
    rfl
  · obtain ⟨-, hb, hs⟩ := ht.resolve_left hv
    rw [hl] at hb hs
    conv_rhs => rw [← List.map_id r]
    exact List.map_congr_left fun l hl ↦
      dropStar_eq_self (hs l hl) (hb l (List.mem_cons_of_mem f hl)) (hp l hl).1

/-- Tags of the right shape are read back from their lines exactly if all of them are plain. -/
theorem tagsFrom_tagLines_iff {ts : List Tag} (hn : ∀ t ∈ ts, t.IsNamed)
    (ht : ∀ t ∈ ts, t.IsTidy) (n : Int) :
    (tagsFrom n (tagLines ts)).map Tag.entry = ts.map Tag.entry ↔ ∀ t ∈ ts, t.IsPlain := by
  induction ts generalizing n with
  | nil => simp [tagLines, tagsFrom, tagLine?]
  | cons t ts ih =>
    obtain ⟨hnt, hn⟩ := List.forall_mem_cons.1 hn
    obtain ⟨htt, ht⟩ := List.forall_mem_cons.1 ht
    have hv := (List.cons_head_tail (lines_ne_nil t.value.toList)).symm
    set f := (lines t.value.toList).head (lines_ne_nil _)
    set r := (lines t.value.toList).tail
    obtain ⟨l, hl, hs⟩ := docLines_of_isTidy hnt htt hv
    have hlines : tagLines (t :: ts) = l :: (r.map dropStar ++ tagLines ts) := by
      rw [tagLines_cons, hl, List.cons_append]
    have hrest (hp : t.IsPlain) (n : Int) :
        tagsFrom n (r.map dropStar ++ tagLines ts) = tagsFrom (n + r.length) (tagLines ts) := by
      obtain ⟨hd, hc⟩ := map_dropStar_of_isPlain htt hp hv
      rw [hd, tagsFrom_append_of_continuation hc]
    have hvalue : tagValue f ((r.map dropStar ++ tagLines ts).takeWhile isContinuation) =
        t.value.toList ↔ t.IsPlain := by
      refine ⟨isPlain_of_tagValue_eq htt hv (areClean_tagLines ts), fun hp ↦ ?_⟩
      obtain ⟨hd, hc⟩ := map_dropStar_of_isPlain htt hp hv
      rw [hd, List.takeWhile_append_of_pos hc]
      exact tagValue_eq_of_isTidy htt hv (takeWhile_tagLines hn ht)
    rw [hlines, tagsFrom, hs, List.map_cons, List.map_cons, List.cons.injEq, List.forall_mem_cons,
      Tag.entry, Tag.entry, Prod.mk.injEq]
    simp only [String.ofList_toList, true_and]
    rw [show String.ofList _ = t.value ↔ t.IsPlain by
      rw [← hvalue, ← String.toList_inj, String.toList_ofList]]
    refine and_congr_right fun hp ↦ ?_
    rw [hrest hp, ih hn ht]

end Doc

namespace Header

open Doc

/-- The lines of the body, none if there is none. -/
def commentText (h : Header) : List (List Char) := h.comment.elim [] fun c ↦ lines c.toList

/-- Reading finds the body, and the tags that stand on the lines behind it. -/
theorem ofLines_of_isReadable {h : Header} (hr : h.IsReadable) {es : List (List Char)}
    (he : ∀ l ∈ es, l = []) (n : Int) :
    ofLines (([] :: h.commentText ++ es) ++ tagLines h.tags) n =
      { body := h.comment
        tags := tagsFrom (n + ([] :: h.commentText ++ es).length) (tagLines h.tags) } := by
  have hc : ∀ l ∈ [] :: h.commentText ++ es, isContinuation l = true := by
    intro l hl
    rcases List.mem_append.1 hl with hl | hl
    · rcases List.mem_cons.1 hl with rfl | hl
      · rfl
      · cases hb : h.comment with
        | none => simp [commentText, hb] at hl
        | some c =>
          rw [commentText, hb] at hl
          rw [isContinuation_eq_not_startsTag, ((hr.body c hb).2 l hl).2]
          rfl
    · rw [he l hl]
      rfl
  have hbody : trimEmptyLines
      ((([] :: h.commentText ++ es) ++ tagLines h.tags).takeWhile isContinuation) =
      trimEmptyLines h.commentText := by
    rw [List.takeWhile_append_of_pos hc,
      trimEmptyLines_append_of_forall _ (takeWhile_tagLines hr.named hr.tidy),
      trimEmptyLines_append_of_forall _ he, trimEmptyLines_nil_cons]
  rw [ofLines, bodyOf, hbody, tagsFrom_append_of_continuation hc, commentText]
  cases hb : h.comment with
  | none => rfl
  | some c =>
    have hfill := (hr.body c hb).1
    rw [Option.elim_some, trimEmptyLines_eq_self hfill, unlines_lines]
    cases hcs : c.toList with
    | nil => simp [hcs, IsFilled] at hfill
    | cons a r => simp [← hcs]

/-- The lines of a readable header that is written: its body, its tags, and empty lines. -/
theorem innerLines_of_isReadable {h : Header} (hr : h.IsReadable) :
    ∃ es, (∀ l ∈ es, l = []) ∧ h.innerLines.map dropStar ++ [[]] =
      h.commentText ++ es ++ tagLines h.tags := by
  cases hb : h.comment with
  | none => exact ⟨[], by simp, by simp [innerLines, commentText, hb, tagLines]⟩
  | some c =>
    obtain ⟨hfill, hls⟩ := hr.body c hb
    have hc : c ≠ "" := fun hc ↦ by simp [hc, IsFilled] at hfill
    have hlines : (bodyLines c).map dropStar = lines c.toList := by
      conv_rhs => rw [← List.map_id (lines c.toList)]
      rw [bodyLines, List.map_map]
      exact List.map_congr_left fun l hl ↦
        (dropStar_star l).trans (trimEnd_eq_self (hls l hl).1)
    refine ⟨if h.tags = [] then [] else [[]], ?_, ?_⟩
    · split <;> simp
    · have hstar : (if h.tags = [] then [] else [[' ', '*']]).map dropStar =
          if h.tags = [] then [] else [[]] := by
        split <;> rfl
      rw [innerLines, commentText, hb, Option.getD_some, if_neg hc, List.map_append,
        List.map_append, hlines, hstar, Option.elim_some, tagLines, List.append_assoc]

theorem IsReadable.comment_ne {h : Header} (hr : h.IsReadable) : h.comment ≠ some "" := by
  intro hb
  have hfill := (hr.body "" hb).1
  simp [IsFilled] at hfill

/-- A readable header that is written and read: its body, and the tags that stand on the lines of
its own tags. -/
theorem exists_read_writeDoc {h : Header} (hr : h.IsReadable) {s : Sink}
    (hs : s.atLineStart = true) (he : s.lineEnd = "\n") (ht : s.text = "")
    (hb : ∀ c ∈ s.margin, isBlank c = true ∧ c ≠ '\n') (n : Int) :
    ∃ m, Doc.read (h.writeDoc s).text n =
      { body := h.comment, tags := tagsFrom m (tagLines h.tags) } := by
  by_cases hn : h.IsSilent
  · have hc : h.comment = none := by
      cases hb : h.comment with
      | none => rfl
      | some c =>
        have hc : c = "" := by simpa [hb] using hn.1
        exact absurd (hc ▸ hb) hr.comment_ne
    rw [writeDoc_eq_write, docLines_of_isSilent hn, hc, hn.2]
    have htext : (s.write (String.ofList (terminated []))).text = "" := ht
    rw [htext]
    exact ⟨n, rfl⟩
  · obtain ⟨es, hes, hlines⟩ := innerLines_of_isReadable hr
    rw [read_eq_ofLines, commentLines_writeDoc hn hs he ht hb, List.cons_append, hlines]
    exact ⟨_, ofLines_of_isReadable hr hes n⟩

/-- A readable header that is written and read: the body is always read back, the tags exactly if
all of them are plain. -/
theorem read_writeDoc_of_isReadable {h : Header} (hr : h.IsReadable) {s : Sink}
    (hs : s.atLineStart = true) (he : s.lineEnd = "\n") (ht : s.text = "")
    (hb : ∀ c ∈ s.margin, isBlank c = true ∧ c ≠ '\n') (n : Int) :
    (Doc.read (h.writeDoc s).text n).body = h.comment ∧
      ((Doc.read (h.writeDoc s).text n).tags.map Tag.entry = h.tags.map Tag.entry ↔
        ∀ t ∈ h.tags, t.IsPlain) := by
  obtain ⟨m, hread⟩ := exists_read_writeDoc hr hs he ht hb n
  rw [hread]
  exact ⟨rfl, tagsFrom_tagLines_iff hr.named hr.tidy m⟩

/-- A header is read back from what is written for it exactly if it is writable. -/
theorem read_writeDoc_agrees_iff {h : Header} {s : Sink} (hs : s.atLineStart = true)
    (he : s.lineEnd = "\n") (ht : s.text = "")
    (hb : ∀ c ∈ s.margin, isBlank c = true ∧ c ≠ '\n') (n : Int) :
    (Doc.read (h.writeDoc s).text n).Agrees h ↔ h.IsWritable := by
  constructor
  · intro ha
    have hr : h.IsReadable := Agrees.isReadable (areClean_commentLines _) ha
    exact ⟨hr, (read_writeDoc_of_isReadable hr hs he ht hb n).2.1 ha.2⟩
  · intro hw
    obtain ⟨hc, htags⟩ := read_writeDoc_of_isReadable hw.toIsReadable hs he ht hb n
    exact ⟨hc, htags.2 hw.plain⟩

/-- Exactly the writable headers are read back from their block at any depth and with any
indentation of blanks. -/
theorem read_writeDoc_indented_agrees_iff (h : Header) (k : Nat) (unit : String)
    (hu : ∀ c ∈ unit.toList, isBlank c = true ∧ c ≠ '\n') (n : Int) :
    (Doc.read (h.writeDoc (Sink.indent^[k] { unit })).text n).Agrees h ↔ h.IsWritable := by
  rw [iterate_indent]
  refine read_writeDoc_agrees_iff rfl rfl rfl (fun c hc ↦ hu c ?_) n
  exact mem_repeated hc

/-- A body and a tag whose value starts with a blank, goes over an empty line and has an `@` that
starts no tag. -/
theorem isWritable_of_reread :
    (∀ c ∈ "\t ".toList, isBlank c = true ∧ c ≠ '\n') ∧
      ({ comment := some "Sum.\n\n  of all", tags := [⟨"param", "  x\n\n@@ y", 0⟩] } :
        Header).IsWritable := by
  have hu : ∀ c ∈ ['\t', ' '], isBlank c = true ∧ c ≠ '\n' :=
    List.forall_mem_cons.2 ⟨by decide, List.forall_mem_singleton.2 (by decide)⟩
  refine ⟨hu, (read_writeDoc_indented_agrees_iff _ 2 "\t " hu 1).1 ⟨?_, ?_⟩⟩
  · decide +kernel
  · decide +kernel

/-- What was read once is read again from the block written for it: the body always, the tags
exactly if all of them are plain. -/
theorem read_docBlock_read_iff (h : Header) (s unit : String) (n m : Int) :
    (Doc.read ((h.withDoc (Doc.read s n)).docBlock unit) m).body = (Doc.read s n).body ∧
      ((Doc.read ((h.withDoc (Doc.read s n)).docBlock unit) m).tags.map Tag.entry =
        (Doc.read s n).tags.map Tag.entry ↔ ∀ t ∈ (Doc.read s n).tags, t.IsPlain) := by
  have hr := (h.agrees_withDoc (Doc.read s n)).isReadable (areClean_commentLines s.toList)
  have hb : ∀ c ∈ margin { unit }, isBlank c = true ∧ c ≠ '\n' := by simp [margin, repeated]
  generalize Doc.read s n = d at hr ⊢
  rw [docBlock]
  exact read_writeDoc_of_isReadable hr (s := { unit }) rfl rfl rfl hb m

/-- A value's further line that starts with a star loses it, and one that starts like a tag becomes
one. -/
theorem read_docBlock_read_ne :
    (Doc.read "/**\n * @x a\n * * b\n */" 1).tags.map Tag.entry = [("x", "a\n* b")] ∧
      (Doc.read ((withDoc {} (Doc.read "/**\n * @x a\n * * b\n */" 1)).docBlock "    ") 1).tags.map
        Tag.entry = [("x", "a\nb")] ∧
      (Doc.read "/**\n * @x a\n *   @y b\n */" 1).tags.map Tag.entry = [("x", "a\n@y b")] ∧
      (Doc.read ((withDoc {} (Doc.read "/**\n * @x a\n *   @y b\n */" 1)).docBlock
        "    ") 1).tags.map Tag.entry = [("x", "a"), ("y", "b")] := by
  decide +kernel

end Header

end JavaOutline
