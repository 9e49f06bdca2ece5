import JavaOutline.Doc.Tag
import JavaOutline.Proofs.Text.Lines

/-! # The words of a value

A word ends at the next blank outside of quotes, and whether a quote opens a section is settled by
all that follows it, in later words too.  So a word is described in front of the rest of the value
(`Tag.IsWord`), and the words of a value by going through it from left to right (`Tag.Reads`).
There is exactly one such reading (`Tag.reads_iff`), so whatever holds of readings holds of the
words: they tile the value, and keep their blanks in quoted sections only (`Tag.words_tile`). -/

namespace JavaOutline

open Text

/-- The text is these pieces in this order, with nothing but blanks in front of them, behind them
and between them, where there is at least one. -/
inductive Text.Tiles : List (List Char) → List Char → Prop
  | nil : Tiles [] []
  | blank {c : Char} {ws : List (List Char)} {v : List Char} :
      isBlank c = true → Tiles ws v → Tiles ws (c :: v)
  | last (w : List Char) : Tiles [w] w
  | cons (w : List Char) {c : Char} {ws : List (List Char)} {v : List Char} :
      isBlank c = true → Tiles ws v → Tiles (w :: ws) (w ++ c :: v)

theorem Text.Tiles.mem {ws : List (List Char)} {v w : List Char} (h : Tiles ws v) (hw : w ∈ ws)
    {c : Char} (hc : c ∈ w) : c ∈ v := by
  induction h with
  | nil => cases hw
  | blank _ _ ih => exact List.mem_cons_of_mem _ (ih hw)
  | last u => exact List.mem_singleton.1 hw ▸ hc
  | cons u _ _ ih =>
    rcases List.mem_cons.1 hw with rfl | hw
    · exact List.mem_append_left _ hc
    · exact List.mem_append_right _ (List.mem_cons_of_mem _ (ih hw))

theorem Text.mem_joinWith {sep : List Char} {ws : List (List Char)} {c : Char}
    (h : c ∈ joinWith sep ws) : c ∈ sep ∨ ∃ w ∈ ws, c ∈ w := by
  induction ws with
  | nil => cases h
  | cons w ws ih =>
    cases ws with
    | nil => exact .inr ⟨w, List.mem_cons_self, h⟩
    | cons u ws =>
      rw [joinWith_cons_cons, List.append_assoc, List.mem_append, List.mem_append] at h
      rcases h with h | h | h
      · exact .inr ⟨w, List.mem_cons_self, h⟩
      · exact .inl h
      · refine (ih h).imp_right ?_
        rintro ⟨w, hw, hc⟩
        exact ⟨w, List.mem_cons_of_mem _ hw, hc⟩

/-- What holds of every character of a given text can be checked by going through it. -/
theorem Text.forall_mem_of_all {p : Char → Bool} {b : Bool} {s : List Char}
    (h : s.all (p · == b) = true) : ∀ c ∈ s, p c = b :=
  fun c hc ↦ beq_iff_eq.1 (List.all_eq_true.1 h c hc)

namespace Tag

variable {c q : Char} {rest v w : List Char} {ws : List (List Char)}

theorem isBlank_of_isQuote (h : isQuote q = true) : isBlank q = false := by
  rw [isQuote, Bool.or_eq_true, beq_iff_eq, beq_iff_eq] at h
  rcases h with rfl | rfl <;> decide

theorem isQuote_of_isBlank (h : isBlank c = true) : isQuote c = false := by
  rw [← Bool.not_eq_true]
  intro hc
  rw [isBlank_of_isQuote hc] at h
  cases h

/-! ## Readings -/

/-- What stands in front of the rest of a value without a blank to part it: characters, among them
quotes that do not occur again, and quoted sections. -/
inductive IsWord (rest : List Char) : List Char → Prop
  | nil : IsWord rest []
  | char {c : Char} {w : List Char} :
      isBlank c = false → (isQuote c = true → c ∉ w ++ rest) → IsWord rest w → IsWord rest (c :: w)
  | quoted {q : Char} {body w : List Char} :
      isQuote q = true → q ∉ body → IsWord rest w → IsWord rest (q :: (body ++ q :: w))

/-- The words of a value, each read in front of what is left. -/
inductive Reads : List (List Char) → List Char → Prop
  | nil : Reads [] []
  | blank {c : Char} {ws : List (List Char)} {v : List Char} :
      isBlank c = true → Reads ws v → Reads ws (c :: v)
  | last {w : List Char} : w ≠ [] → IsWord [] w → Reads [w] w
  | cons {c : Char} {w : List Char} {ws : List (List Char)} {v : List Char} :
      w ≠ [] → IsWord (c :: v) w → isBlank c = true → Reads ws v → Reads (w :: ws) (w ++ c :: v)

/-- What may stand behind something that no quote ends. -/
def Ends (rest : List Char) : Prop := rest = [] ∨ startsBlank rest = true

/-- A value starts with a word, if that may be empty, up to its end or to a blank. -/
theorem exists_isWord (v : List Char) : ∃ w rest, w ++ rest = v ∧ IsWord rest w ∧ Ends rest := by
  induction hn : v.length using Nat.strong_induction_on generalizing v with
  | _ n ih =>
    subst hn
    cases v with
    | nil => exact ⟨[], [], rfl, .nil, .inl rfl⟩
    | cons c r =>
      by_cases hc : isBlank c = true
      · exact ⟨[], c :: r, rfl, .nil, .inr hc⟩
      by_cases hsection : isQuote c = true ∧ c ∈ r
      · obtain ⟨hquote, hmem⟩ := hsection
        obtain ⟨body, after, rfl, hbody⟩ := List.eq_append_cons_of_mem hmem
        obtain ⟨w, rest, rfl, hw, hrest⟩ :=
          ih after.length (by simp only [List.length_cons, List.length_append]; omega) after rfl
        exact ⟨c :: (body ++ c :: w), rest, by simp, .quoted hquote hbody hw, hrest⟩
      · obtain ⟨w, rest, rfl, hw, hrest⟩ := ih r.length (Nat.lt_succ_self _) r rfl
        have hchar : IsWord rest (c :: w) :=
          .char (eq_false_of_ne_true hc) (fun hquote hmem ↦ hsection ⟨hquote, hmem⟩) hw
        exact ⟨c :: w, rest, rfl, hchar, hrest⟩

/-- Every value can be read. -/
theorem exists_reads (v : List Char) : ∃ ws, Reads ws v := by
  induction hn : v.length using Nat.strong_induction_on generalizing v with
  | _ n ih =>
    subst hn
    obtain ⟨w, rest, rfl, hw, hrest⟩ := exists_isWord v
    cases rest with
    | nil =>
      rw [List.append_nil]
      by_cases hne : w = []
      · exact ⟨[], hne ▸ .nil⟩
      · exact ⟨[w], .last hne hw⟩
    | cons c r =>
      have hc : isBlank c = true := hrest.resolve_left (List.cons_ne_nil c r)
      have hlength : r.length < (w ++ c :: r).length := by
        rw [List.length_append, List.length_cons]
        omega
      obtain ⟨ws, hws⟩ := ih r.length hlength r rfl
      by_cases hne : w = []
      · exact ⟨ws, hne ▸ .blank hc hws⟩
      · exact ⟨w :: ws, .cons hne hw hc hws⟩

/-! ## The function reads -/

theorem marks_quoted {body : List Char} (hbody : q ∉ body) (r : List Char) :
    marks (some q) (body ++ q :: r) = (body ++ [q]).map (·, false) ++ marks none r := by
  induction body with
  | nil => exact congrArg _ (congrArg (marks · r) (if_pos rfl))
  | cons b body ih =>
    obtain ⟨hb, hbody⟩ := not_or.1 (List.mem_cons.not.1 hbody)
    rw [List.cons_append, marks, if_neg (Ne.symm hb), ih hbody]
    rfl

/-- A section parts no words, and the words go on behind it. -/
theorem marks_section (hq : isQuote q = true) {body : List Char} (hbody : q ∉ body)
    (r : List Char) :
    marks none (q :: (body ++ [q]) ++ r) = (q :: (body ++ [q])).map (·, false) ++ marks none r := by
  have hmem : q ∈ body ++ q :: r := by simp
  have hvalue : q :: (body ++ [q]) ++ r = q :: (body ++ q :: r) := by simp
  rw [hvalue, marks, if_pos hq, if_pos hmem, marks_quoted hbody]
  rfl

/-- Nothing in a word parts words. -/
theorem IsWord.marks_append (h : IsWord rest w) :
    marks none (w ++ rest) = w.map (·, false) ++ marks none rest := by
  induction h with
  | nil => rfl
  | @char c w hc hquote _ ih =>
    rw [List.cons_append, marks]
    split
    next hq => rw [if_neg (hquote hq), ih]; rfl
    next => rw [hc, ih]; rfl
  | @quoted q body w hq hbody _ ih =>
    have hvalue : q :: (body ++ q :: w) ++ rest = q :: (body ++ [q]) ++ (w ++ rest) := by simp
    rw [hvalue, marks_section hq hbody, ih]
    simp

theorem marks_blank (hc : isBlank c = true) (v : List Char) :
    marks none (c :: v) = (c, true) :: marks none v := by
  rw [marks, isQuote_of_isBlank hc, hc]
  rfl

theorem chunks_of_ne_nil (hw : w ≠ []) : chunks (w.map (·, false)) = [w] := by
  induction w with
  | nil => exact absurd rfl hw
  | cons c w ih =>
    cases w with
    | nil => rfl
    | cons d w =>
      have ih := ih (List.cons_ne_nil d w)
      rw [List.map_cons] at ih
      rw [List.map_cons, List.map_cons, chunks, ih]

theorem chunks_append (hw : w ≠ []) (c : Char) (ms : List (Char × Bool)) :
    chunks (w.map (·, false) ++ (c, true) :: ms) = w :: chunks ms := by
  induction w with
  | nil => exact absurd rfl hw
  | cons d w ih =>
    cases w with
    | nil => rw [List.map_singleton, List.singleton_append, chunks]
    | cons e w =>
      have ih := ih (List.cons_ne_nil e w)
      rw [List.map_cons, List.cons_append] at ih
      rw [List.map_cons, List.map_cons, List.cons_append, List.cons_append, chunks, ih]

theorem Reads.wordsOf_eq (h : Reads ws v) : wordsOf v = ws := by
  induction h with
  | nil => rfl
  | blank hc _ ih => rw [wordsOf, marks_blank hc, chunks, ← wordsOf, ih]
  | @last w hne hw =>
    have hmarks := hw.marks_append
    rw [List.append_nil, marks, List.append_nil] at hmarks
    rw [wordsOf, hmarks, chunks_of_ne_nil hne]
  | cons hne hw hc _ ih =>
    rw [wordsOf, hw.marks_append, marks_blank hc, chunks_append hne, ← wordsOf, ih]

/-- The words of a value are what it reads as, and it reads as nothing else. -/
theorem reads_iff : Reads ws v ↔ wordsOf v = ws := by
  refine ⟨Reads.wordsOf_eq, ?_⟩
  rintro rfl
  obtain ⟨ws, h⟩ := exists_reads v
  rwa [h.wordsOf_eq]

/-! ## What holds of readings -/

theorem Reads.tiles (h : Reads ws v) : Tiles ws v := by
  induction h with
  | nil => exact .nil
  | blank hc _ ih => exact .blank hc ih
  | last _ _ => exact .last _
  | cons _ _ hc _ ih => exact .cons _ hc ih

theorem Reads.forall_isWord (h : Reads ws v) : ∀ w ∈ ws, w ≠ [] ∧ ∃ rest, IsWord rest w := by
  induction h with
  | nil => exact nofun
  | blank _ _ ih => exact ih
  | last hne hw => exact List.forall_mem_singleton.2 ⟨hne, _, hw⟩
  | cons hne hw _ _ ih => exact List.forall_mem_cons.2 ⟨⟨hne, _, hw⟩, ih⟩

/-- A place in a text is quoted if it stands between a quote and the next one of the same kind. -/
def IsQuoted (before after : List Char) : Prop :=
  ∃ q a b d e, isQuote q = true ∧ before = a ++ q :: b ∧ after = d ++ q :: e ∧ q ∉ b ∧ q ∉ d

theorem IsQuoted.append_left {before after : List Char} (h : IsQuoted before after)
    (s : List Char) : IsQuoted (s ++ before) after := by
  obtain ⟨q, a, b, d, e, hq, rfl, rfl, hb, hd⟩ := h
  exact ⟨q, s ++ a, b, d, e, hq, (List.append_assoc s a _).symm, rfl, hb, hd⟩

/-- The blanks of a word are quoted. -/
theorem IsWord.isQuoted (h : IsWord rest w) {x y : List Char} (hw : w = x ++ c :: y)
    (hc : isBlank c = true) : IsQuoted x y := by
  have hblank {d : Char} (hd : isBlank d = false) : d ≠ c := by
    rintro rfl
    rw [hc] at hd
    cases hd
  induction h generalizing x with
  | nil => exact absurd hw.symm (List.append_ne_nil_of_right_ne_nil x (List.cons_ne_nil c y))
  | @char d w hd _ _ ih =>
    rcases List.cons_eq_append_iff.1 hw with ⟨-, hcons⟩ | ⟨x, rfl, rfl⟩
    · exact absurd (List.cons.inj hcons).1.symm (hblank hd)
    · exact (ih rfl).append_left [d]
  | @quoted q body w hq hbody _ ih =>
    have hqc : q ≠ c := hblank (isBlank_of_isQuote hq)
    rcases List.cons_eq_append_iff.1 hw with ⟨-, hcons⟩ | ⟨x, rfl, hinner⟩
    · exact absurd (List.cons.inj hcons).1.symm hqc
    -- the place is in the section, or behind the quote that ends it
    rcases List.append_eq_append_iff.1 hinner with ⟨a, rfl, ha⟩ | ⟨a, rfl, ha⟩
    · rcases List.cons_eq_append_iff.1 ha with ⟨-, hcons⟩ | ⟨a, rfl, rfl⟩
      · exact absurd (List.cons.inj hcons).1.symm hqc
      · have hquoted := (ih rfl).append_left (q :: (body ++ [q]))
        simpa using hquoted
    · rcases List.cons_eq_append_iff.1 ha with ⟨-, hcons⟩ | ⟨a, rfl, rfl⟩
      · exact absurd (List.cons.inj hcons).1 hqc
      · obtain ⟨hx, ha⟩ := not_or.1 (List.mem_append.not.1 hbody)
        exact ⟨q, [], x, a, w, hq, rfl, rfl, hx, fun h ↦ ha (List.mem_cons_of_mem c h)⟩

/-- Without quotes there is nothing that keeps a blank. -/
theorem IsWord.isBlank_eq_false (h : IsWord rest w) (hw : ∀ c ∈ w, isQuote c = false) :
    ∀ c ∈ w, isBlank c = false := by
  intro c hc
  obtain ⟨x, y, rfl⟩ := List.append_of_mem hc
  refine eq_false_of_ne_true fun hblank ↦ ?_
  obtain ⟨q, a, b, -, -, hq, rfl, -⟩ := h.isQuoted rfl hblank
  rw [hw q (by simp)] at hq
  cases hq

theorem Reads.eq_splitOnP (h : Reads ws v) (hv : ∀ c ∈ v, isQuote c = false) :
    ws = (v.splitOnP isBlank).filter (· ≠ []) := by
  induction h with
  | nil => rfl
  | @blank c ws v hc _ ih =>
    rw [← List.nil_append (c :: v), List.splitOnP_append_cons [] v hc, List.filter_append]
    exact ih fun d hd ↦ hv d (List.mem_cons_of_mem c hd)
  | @last w hne hw =>
    rw [List.splitOnP_eq_singleton (hw.isBlank_eq_false hv), List.filter_singleton]
    simp [hne]
  | @cons c w ws v hne hw hc _ ih =>
    obtain ⟨hvw, hvv⟩ := List.forall_mem_append.1 hv
    rw [List.splitOnP_append_cons w v hc, List.filter_append,
      List.splitOnP_eq_singleton (hw.isBlank_eq_false hvw), ← ih (List.forall_mem_cons.1 hvv).2]
    simp [hne]

/-- A word stays one in front of anything that brings no quotes of its own. -/
theorem IsWord.mono (h : IsWord rest w) {rest' : List Char}
    (hrest : ∀ q ∈ rest', isQuote q = true → q ∈ rest) : IsWord rest' w := by
  induction h with
  | nil => exact .nil
  | @char c w hc hquote _ ih =>
    refine .char hc (fun hq hmem ↦ hquote hq ?_) ih
    rcases List.mem_append.1 hmem with hmem | hmem
    · exact List.mem_append_left _ hmem
    · exact List.mem_append_right _ (hrest c hmem hq)
  | quoted hq hbody _ ih => exact .quoted hq hbody ih

/-- What a value reads as does not change when every gap becomes one space. -/
theorem Reads.respaced (h : Reads ws v) : Reads ws (joinWith [' '] ws) := by
  induction h with
  | nil => exact .nil
  | blank _ _ ih => exact ih
  | last hne hw => exact .last hne hw
  | @cons c w ws v hne hw hc h ih =>
    cases ws with
    | nil => exact .last hne (hw.mono nofun)
    | cons u ws =>
      rw [joinWith_cons_cons, List.append_assoc, List.singleton_append]
      refine .cons hne (hw.mono fun q hq hquote ↦ ?_) (by decide) ih
      have hmem : q ∈ joinWith [' '] (u :: ws) := by
        refine (List.mem_cons.1 hq).resolve_left ?_
        rintro rfl
        cases hquote
      rcases mem_joinWith hmem with hspace | ⟨x, hx, hqx⟩
      · rw [List.mem_singleton.1 hspace] at hquote
        cases hquote
      · exact List.mem_cons_of_mem c (h.tiles.mem hx hqx)

theorem map_toList_words (t : Tag) : t.words.map String.toList = wordsOf t.value.toList := by
  rw [words, List.map_map]
  simp

theorem reads_words (t : Tag) : Reads (t.words.map String.toList) t.value.toList :=
  reads_iff.2 t.map_toList_words.symm

/-- The words of a tag are those that its value reads as from left to right.  None is empty, they
tile the value, all blanks in them are quoted, without quotes they are what stands between blanks,
and joined by spaces they are the words again. -/
theorem words_tile (t : Tag) :
    Reads (t.words.map String.toList) t.value.toList ∧
    (∀ w ∈ t.words, w ≠ "") ∧
    Tiles (t.words.map String.toList) t.value.toList ∧
    (∀ w ∈ t.words, ∀ x c y, w.toList = x ++ c :: y → isBlank c = true → IsQuoted x y) ∧
    ((∀ c ∈ t.value.toList, isQuote c = false) →
      t.words.map String.toList = (t.value.toList.splitOnP isBlank).filter (· ≠ [])) ∧
    { t with value := " ".intercalate t.words }.words = t.words := by
  have hreads := t.reads_words
  have hword := List.forall_mem_map.1 hreads.forall_isWord
  refine ⟨hreads, fun w hw ↦ ?_, hreads.tiles, fun w hw x c y h hc ↦ ?_, hreads.eq_splitOnP, ?_⟩
  · rintro rfl
    exact (hword "" hw).1 rfl
  · obtain ⟨-, rest, hrest⟩ := hword w hw
    exact hrest.isQuoted h hc
  · have hspaced : (" ".intercalate t.words).toList =
        joinWith [' '] (t.words.map String.toList) := by
      rw [String.toList_intercalate, joinWith_eq_intercalate]
      rfl
    rw [words, hspaced, hreads.respaced.wordsOf_eq, List.map_map]
    simp

/-- A quoted section that holds a blank and a quote of the other kind, before a quote that stands
alone; and a value without quotes. -/
theorem words_tile_section : ∃ t u : Tag,
    t.value = "  x \"a 'b\" it's" ∧ t.words = ["x", "\"a 'b\"", "it's"] ∧
      "\"a 'b\"" ∈ t.words ∧ isBlank ' ' = true ∧
      IsQuoted "\"a".toList "'b\"".toList ∧
    u.value = " one\ttwo " ∧ (∀ c ∈ u.value.toList, isQuote c = false) ∧
      u.words.map String.toList = (u.value.toList.splitOnP isBlank).filter (· ≠ []) := by
  refine ⟨{ name := "see", value := "  x \"a 'b\" it's", line := 1 },
    { name := "see", value := " one\ttwo ", line := 2 }, rfl, ?_⟩
  generalize ht : Tag.mk "see" "  x \"a 'b\" it's" 1 = t
  generalize hu : Tag.mk "see" " one\ttwo " 2 = u
  obtain ⟨-, -, -, hquoted, -, -⟩ := words_tile t
  obtain ⟨-, -, -, -, hsplit, -⟩ := words_tile u
  have hwords : t.words = ["x", "\"a 'b\"", "it's"] := by rw [← ht]; decide
  have hmem : "\"a 'b\"" ∈ t.words := by rw [hwords]; decide
  have hunquoted : ∀ c ∈ u.value.toList, isQuote c = false := by
    rw [← hu]
    exact forall_mem_of_all (by decide)
  exact ⟨hwords, hmem, by decide, hquoted _ hmem _ ' ' _ rfl (by decide), hu ▸ rfl, hunquoted,
    hsplit hunquoted⟩

end Tag

end JavaOutline
