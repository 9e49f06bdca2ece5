import JavaOutline.Decl.Render
import JavaOutline.Proofs.Layout.Sink

/-! # The lines of a documentation block

A documentation block is written line by line: the opening mark, the body with a star in front of
each line, a bare star, the tags, the closing mark.  Only the first line of a tag has a star; the
other lines of its value stand as they are.  The main statements say which lines are written
(`Header.writeDoc_eq_write`) and which lines reading finds in them (`Header.commentLines_writeDoc`).
-/

namespace JavaOutline

open Text Sink

/-! ## Lines without their star -/

namespace Doc

theorem dropStar_append_of_blank {pre : List Char} (l : List Char) (h : ∀ c ∈ pre, isBlank c) :
    dropStar (pre ++ l) = dropStar l := by
  rw [dropStar, trim_append_of_blank l h, dropStar]

theorem dropStar_of_blank {l : List Char} (h : ∀ c ∈ l, isBlank c) : dropStar l = [] := by
  rw [← List.append_nil l, dropStar_append_of_blank [] h]
  rfl

/-- Behind a star and a space a line is kept but for the blanks at its end. -/
theorem dropStar_star (l : List Char) : dropStar ([' ', '*', ' '] ++ l) = trimEnd l := by
  have hs : trimStart ([' ', '*', ' '] ++ l) = '*' :: ' ' :: l := rfl
  rw [dropStar, trim, hs]
  by_cases hl : trimEnd l = []
  · have hb : trimEnd ('*' :: ' ' :: l) = ['*'] := by
      rw [trimEnd, dropEndWhile_cons, dropEndWhile_cons, ← trimEnd, hl]
      rfl
    rw [hb, hl]
    rfl
  · rw [show '*' :: ' ' :: l = ['*', ' '] ++ l from rfl, trimEnd_append_of_ne_nil _ hl]
    exact trimEnd_eq_self (endsBlank_trimEnd l)

theorem dropStar_eq_self {l : List Char} (h : startsBlank l = false) (h' : endsBlank l = false)
    (hs : l.head? ≠ some '*') : dropStar l = l := by
  rw [dropStar, trim_eq_self h h']
  split
  · simp at hs
  · simp at hs
  · exact trimEnd_eq_self h'

@[simp] theorem endsBlank_dropStar (l : List Char) : endsBlank (dropStar l) = false := by
  rw [dropStar]
  split <;> exact endsBlank_trimEnd _

theorem mem_of_mem_dropStar {c : Char} {l : List Char} (h : c ∈ dropStar l) : c ∈ l := by
  apply mem_of_mem_trim
  rw [dropStar] at h
  split at h
  · next r hr =>
    exact hr ▸ List.mem_cons_of_mem _ (List.mem_cons_of_mem _ (mem_of_mem_trimEnd h))
  · next r _ hr => exact hr ▸ List.mem_cons_of_mem _ (mem_of_mem_trimEnd h)
  · exact mem_of_mem_trimEnd h

theorem length_trimEnd_le (l : List Char) : (trimEnd l).length ≤ l.length :=
  (isPrefix_dropEndWhile isBlank l).length_le

/-- A star in front is lost. -/
theorem length_dropStar_lt {l : List Char} (hs : l.head? = some '*') :
    (dropStar l).length < l.length := by
  obtain ⟨r, rfl⟩ : ∃ r, l = '*' :: r := by
    cases l with
    | nil => simp at hs
    | cons c r => exact ⟨r, by simpa using hs⟩
  have ht : trim ('*' :: r) = '*' :: trimEnd r := by
    rw [trim, trimStart_eq_self (by rfl), trimEnd, dropEndWhile_cons, ← trimEnd]
    split
    · next h => rw [h]; rfl
    · rfl
  have hr := length_trimEnd_le r
  rw [dropStar, ht]
  split
  · next s hs =>
    have hs := congrArg List.length (List.cons.inj hs).2
    have hl := length_trimEnd_le s
    simp only [List.length_cons] at hs ⊢
    omega
  · next s _ hs =>
    have hs := congrArg List.length (List.cons.inj hs).2
    have hl := length_trimEnd_le s
    simp only [List.length_cons] at hs ⊢
    omega
  · next h => exact absurd rfl (h _)

/-- The lines that reading finds between the marks of a comment that fills whole lines. -/
theorem commentLines_framed {pre : List Char} (hb : ∀ c ∈ pre, isBlank c) (hn : '\n' ∉ pre)
    {ls : List (List Char)} (hls : ∀ l ∈ ls, '\n' ∉ l) :
    commentLines (terminated
        (((['/', '*', '*'] :: ls) ++ [[' ', '*', '/']]).map (indented pre))) =
      [] :: ls.map dropStar ++ [[]] := by
  have hi : ∀ l ∈ ls.map (indented pre), '\n' ∉ l := by
    intro l hl
    obtain ⟨m, hm, rfl⟩ := List.mem_map.1 hl
    exact notMem_indented hn (hls m hm)
  have hd : ∀ l, dropStar (indented pre l) = dropStar l := by
    intro l
    cases l with
    | nil => rfl
    | cons c l => exact dropStar_append_of_blank _ hb
  set inner := '\n' :: terminated (ls.map (indented pre)) ++ (pre ++ [' ']) with hinner
  have ht : terminated (((['/', '*', '*'] :: ls) ++ [[' ', '*', '/']]).map (indented pre)) =
      pre ++ (['/', '*', '*'] ++ inner ++ ['*', '/'] ++ ['\n']) := by
    simp [hinner]
  have htrim : trim (pre ++ (['/', '*', '*'] ++ inner ++ ['*', '/'] ++ ['\n'])) =
      ['/', '*', '*'] ++ (inner ++ ['*', '/']) := by
    rw [trim_append_of_blank _ hb, trim, trimStart_eq_self (by rfl),
      trimEnd_append_of_blank _ (by simp), List.append_assoc]
    refine trimEnd_eq_self ?_
    rw [endsBlank_append _ (by simp), endsBlank_append _ (by simp)]
    decide
  have hstart : dropStart ['/', '*', '*'] (['/', '*', '*'] ++ (inner ++ ['*', '/'])) =
      inner ++ ['*', '/'] := by
    simp [dropStart]
  have hend : dropEnd ['*', '/'] (inner ++ ['*', '/']) = inner := by
    simp [dropEnd]
  have hlines : lines inner = [] :: ls.map (indented pre) ++ [pre ++ [' ']] := by
    have hfirst : lines inner =
        [] :: lines (terminated (ls.map (indented pre)) ++ (pre ++ [' '])) :=
      lines_append_newline List.not_mem_nil _
    rw [hfirst, lines_terminated_append hi, lines_of_notMem (by simp [hn]), List.cons_append]
  rw [commentLines, ht, htrim, hstart, hend, hlines]
  have hlast : dropStar (pre ++ [' ']) = [] := by
    refine dropStar_of_blank fun c hc ↦ ?_
    rcases List.mem_append.1 hc with hc | hc
    · exact hb c hc
    · simp_all
  simp [hd, hlast, dropStar_of_blank]

/-- The lines of a comment hold no line feed and do not end with a blank. -/
theorem of_mem_commentLines {s l : List Char} (h : l ∈ commentLines s) :
    '\n' ∉ l ∧ endsBlank l = false := by
  obtain ⟨m, hm, rfl⟩ := List.mem_map.1 h
  exact ⟨fun hc ↦ notMem_of_mem_lines hm (mem_of_mem_dropStar hc), endsBlank_dropStar m⟩

end Doc

/-! ## The lines that are written -/

/-- The lines on which a tag is written. -/
def Tag.docLines (t : Tag) : List (List Char) := lines ([' ', '*', ' '] ++ t.text.toList)

namespace Header

/-- The lines on which a body is written. -/
def bodyLines (body : String) : List (List Char) :=
  (lines body.toList).map ([' ', '*', ' '] ++ ·)

/-- The lines between the marks of a documentation block. -/
def innerLines (h : Header) : List (List Char) :=
  (if h.comment.getD "" = "" then []
    else bodyLines (h.comment.getD "") ++ if h.tags = [] then [] else [[' ', '*']]) ++
  h.tags.flatMap Tag.docLines

/-- The lines of the documentation block. -/
def docLines (h : Header) : List (List Char) :=
  if h.comment.getD "" = "" ∧ h.tags = [] then []
  else (['/', '*', '*'] :: h.innerLines) ++ [[' ', '*', '/']]

theorem terminated_bodyLines (pre body : List Char) :
    terminated ((lines body).map (pre ++ ·)) =
      pre ++ body.flatMap (fun c ↦ if c = '\n' then '\n' :: pre else [c]) ++ ['\n'] := by
  induction body with
  | nil => simp
  | cons c body ih =>
    by_cases hc : c = '\n'
    · subst hc
      rw [show '\n' :: body = [] ++ '\n' :: body from rfl, lines_append_newline List.not_mem_nil,
        List.map_cons, terminated_cons, ih]
      simp
    · rw [show c :: body = [c] ++ body from rfl, lines_append (by simpa using Ne.symm hc)]
      cases hl : lines body with
      | nil => exact absurd hl (lines_ne_nil body)
      | cons l ls =>
        rw [hl, List.map_cons, terminated_cons] at ih
        have ih := List.append_cancel_left (List.append_assoc pre l _ ▸
          List.append_assoc pre _ ['\n'] ▸ ih)
        simp [hc, ih]

theorem writeBody_eq_write (body : String) (s : Sink) :
    writeBody body s = s.write (String.ofList (terminated (bodyLines body))) := by
  rw [bodyLines, terminated_bodyLines, writeBody, writeLine_eq_write, ← write_append]
  congr 1
  simp [String.ext_iff]

theorem writeTag_eq_write (s : Sink) (t : Tag) :
    writeTag s t = s.write (String.ofList (terminated t.docLines)) := by
  have ht : writeTag s t = s.write (" * " ++ t.text ++ "\n") := by
    rw [writeTag, newline_eq_write, Tag.text]
    by_cases hv : t.value.isEmpty
    · simp only [if_pos hv, ← write_append]
      congr 1
    · simp only [if_neg hv, ← write_append]
      congr 1
  rw [ht, Tag.docLines, terminated_lines]
  congr 1
  simp [String.ext_iff]

theorem writeTags_eq_write (ts : List Tag) (s : Sink) :
    ts.foldl writeTag s = s.write (String.ofList (terminated (ts.flatMap Tag.docLines))) := by
  induction ts generalizing s with
  | nil => rfl
  | cons t ts ih =>
    rw [List.foldl_cons, ih, writeTag_eq_write, List.flatMap_cons, terminated_append,
      write_ofList_append]

/-- Nothing is written, because there is neither body nor tag. -/
def IsSilent (h : Header) : Prop := h.comment.getD "" = "" ∧ h.tags = []

theorem docLines_of_isSilent {h : Header} (hs : h.IsSilent) : h.docLines = [] := if_pos hs

theorem docLines_of_not_isSilent {h : Header} (hs : ¬h.IsSilent) :
    h.docLines = (['/', '*', '*'] :: h.innerLines) ++ [[' ', '*', '/']] := if_neg hs

/-- Writing the documentation block is writing its lines. -/
theorem writeDoc_eq_write (h : Header) (s : Sink) :
    h.writeDoc s = s.write (String.ofList (terminated h.docLines)) := by
  have hbody (s : Sink) : writeSome h.comment writeBody s =
      s.write (String.ofList (terminated
        (if h.comment.getD "" = "" then [] else bodyLines (h.comment.getD "")))) := by
    cases hc : h.comment with
    | none => rfl
    | some c =>
      by_cases hc : c = ""
      · simp [writeSome, hc]
      · simp [writeSome, hc, writeBody_eq_write]
  by_cases hs : h.IsSilent
  · rw [docLines_of_isSilent hs, writeDoc]
    simp [hs.1, hs.2]
  · have hne : ¬(h.comment.getD "" = "" ∧ h.tags = []) := hs
    simp only [docLines_of_not_isSilent hs, writeDoc, hbody, writeTags_eq_write, innerLines]
    by_cases hc : h.comment.getD "" = "" <;> by_cases ht : h.tags = []
    · exact absurd ⟨hc, ht⟩ hne
    all_goals
      simp [hc, ht, writeLine_eq_write, ← write_append]
      exact congrArg s.write (by simp [String.ext_iff])

theorem notMem_of_mem_innerLines {h : Header} {l : List Char} (hl : l ∈ h.innerLines) :
    '\n' ∉ l := by
  rw [innerLines, List.mem_append] at hl
  rcases hl with hl | hl
  · split at hl
    · simp at hl
    · rcases List.mem_append.1 hl with hl | hl
      · obtain ⟨m, hm, rfl⟩ := List.mem_map.1 hl
        simpa using notMem_of_mem_lines hm
      · split at hl
        · simp at hl
        · simp_all
  · obtain ⟨t, _, hl⟩ := List.mem_flatMap.1 hl
    exact notMem_of_mem_lines hl

/-- What reading finds in a block that is written into a fresh sink at some depth. -/
theorem commentLines_writeDoc {h : Header} (hn : ¬h.IsSilent) {s : Sink}
    (hs : s.atLineStart = true) (he : s.lineEnd = "\n") (ht : s.text = "")
    (hb : ∀ c ∈ s.margin, isBlank c ∧ c ≠ '\n') :
    Doc.commentLines (h.writeDoc s).text.toList = [] :: h.innerLines.map Doc.dropStar ++ [[]] := by
  have hls : ∀ l ∈ h.docLines, '\n' ∉ l := by
    rw [docLines_of_not_isSilent hn]
    intro l hl
    rcases List.mem_append.1 hl with hl | hl
    · rcases List.mem_cons.1 hl with rfl | hl
      · decide
      · exact notMem_of_mem_innerLines hl
    · simp_all
  rw [writeDoc_eq_write, write_terminated hs he hls, docLines_of_not_isSilent hn, ht]
  simp only [String.empty_append, String.toList_ofList]
  exact Doc.commentLines_framed (fun c hc ↦ (hb c hc).1) (fun hc ↦ (hb _ hc).2 rfl)
    fun l hl ↦ notMem_of_mem_innerLines hl

end Header

end JavaOutline
