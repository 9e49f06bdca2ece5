import JavaOutline.Text.Lines
import Mathlib.Data.List.DropRight
import Mathlib.Data.List.TakeWhile

/-! # Lines and trimming: the laws

Cutting a text into lines and joining lines are inverse to each other on lines without a line feed,
trimming only shortens, and a trimmed text is one whose ends are not blank.  The functions of
`JavaOutline.Text.Blank` and `JavaOutline.Text.Lines` are those of the list library under other
names, so most laws are transported from there. -/

namespace JavaOutline.Text

/-! ## The ends of a text -/

/-- The text starts with a blank. -/
def startsBlank (s : List Char) : Bool := s.head?.any isBlank

/-- The text ends with a blank. -/
def endsBlank (s : List Char) : Bool := s.getLast?.any isBlank

@[simp] theorem startsBlank_cons (c : Char) (s : List Char) :
    startsBlank (c :: s) = isBlank c := rfl

@[simp] theorem endsBlank_nil : endsBlank [] = false := rfl

@[simp] theorem endsBlank_concat (s : List Char) (c : Char) :
    endsBlank (s ++ [c]) = isBlank c := by
  simp [endsBlank]

theorem endsBlank_append (s : List Char) {t : List Char} (h : t ≠ []) :
    endsBlank (s ++ t) = endsBlank t := by
  obtain ⟨t, c, rfl⟩ := (List.eq_nil_or_concat' t).resolve_left h
  rw [← List.append_assoc, endsBlank_concat, endsBlank_concat]

theorem endsBlank_cons (c : Char) {t : List Char} (h : t ≠ []) :
    endsBlank (c :: t) = endsBlank t := endsBlank_append [c] h

@[simp] theorem isBlank_newline : isBlank '\n' = true := by decide

@[simp] theorem isBlank_space : isBlank ' ' = true := by decide

/-! ## Trimming -/

theorem dropEndWhile_eq_rdropWhile (p : α → Bool) (l : List α) :
    dropEndWhile p l = l.rdropWhile p := by
  induction l with
  | nil => rfl
  | cons a r ih =>
    rw [dropEndWhile_cons, ih, List.rdropWhile, List.rdropWhile, List.reverse_cons,
      List.dropWhile_append]
    by_cases h : List.dropWhile p r.reverse = []
    · by_cases ha : p a <;> simp [h, ha]
    · simp [h]

theorem isPrefix_dropEndWhile (p : α → Bool) (l : List α) : dropEndWhile p l <+: l :=
  dropEndWhile_eq_rdropWhile p l ▸ List.rdropWhile_prefix p l

theorem dropEndWhile_append_of_pos {p : α → Bool} (s : List α) {t : List α}
    (h : ∀ a ∈ t, p a) : dropEndWhile p (s ++ t) = dropEndWhile p s := by
  simp only [dropEndWhile_eq_rdropWhile, List.rdropWhile, List.reverse_append]
  rw [List.dropWhile_append_of_pos fun a ha ↦ h a (List.mem_reverse.1 ha)]

theorem dropEndWhile_eq_self {p : α → Bool} {s : List α} (h : s.getLast?.any p = false) :
    dropEndWhile p s = s := by
  rw [dropEndWhile_eq_rdropWhile, List.rdropWhile_eq_self_iff]
  intro hs
  simpa [List.getLast?_eq_getLast_of_ne_nil hs] using h

theorem getLast?_dropEndWhile (p : α → Bool) (s : List α) :
    (dropEndWhile p s).getLast?.any p = false := by
  rw [dropEndWhile_eq_rdropWhile]
  by_cases h : s.rdropWhile p = []
  · rw [h]; rfl
  · rw [List.getLast?_eq_getLast_of_ne_nil h]
    simpa using List.rdropWhile_last_not p s h

theorem exists_append_eq_dropEndWhile (p : α → Bool) (s : List α) :
    ∃ t, dropEndWhile p s ++ t = s ∧ ∀ a ∈ t, p a := by
  rw [dropEndWhile_eq_rdropWhile]
  exact ⟨_, List.rdropWhile_append_rtakeWhile, fun a ha ↦ List.mem_rtakeWhile_imp ha⟩

/-- What is dropped at both ends satisfies the test. -/
theorem exists_append_eq_dropEndWhile_dropWhile (p : α → Bool) (s : List α) :
    ∃ before after, before ++ dropEndWhile p (s.dropWhile p) ++ after = s ∧
      ∀ a ∈ before ++ after, p a := by
  obtain ⟨after, hs, hafter⟩ := exists_append_eq_dropEndWhile p (s.dropWhile p)
  refine ⟨s.takeWhile p, after, ?_, ?_⟩
  · rw [List.append_assoc, hs, List.takeWhile_append_dropWhile]
  · intro a ha
    rcases List.mem_append.1 ha with ha | ha
    · exact List.mem_takeWhile_imp ha
    · exact hafter a ha

theorem head?_dropEndWhile_dropWhile {p : α → Bool} {s : List α} {a : α}
    (h : (dropEndWhile p (s.dropWhile p)).head? = some a) : p a = false := by
  obtain ⟨r, hr⟩ := isPrefix_dropEndWhile p (s.dropWhile p)
  have hd := List.head?_dropWhile_not p s
  rw [← hr, List.head?_append, h] at hd
  exact hd

theorem trimEnd_append_of_blank (s : List Char) {t : List Char} (h : ∀ c ∈ t, isBlank c) :
    trimEnd (s ++ t) = trimEnd s := dropEndWhile_append_of_pos s h

theorem trimEnd_eq_self {s : List Char} (h : endsBlank s = false) : trimEnd s = s :=
  dropEndWhile_eq_self h

@[simp] theorem endsBlank_trimEnd (s : List Char) : endsBlank (trimEnd s) = false :=
  getLast?_dropEndWhile isBlank s

theorem trimEnd_append_of_ne_nil (s : List Char) {t : List Char} (h : trimEnd t ≠ []) :
    trimEnd (s ++ t) = s ++ trimEnd t := by
  induction s with
  | nil => rfl
  | cons a s ih =>
    rw [List.cons_append, trimEnd, dropEndWhile_cons, ← trimEnd, ih]
    simp [h]

theorem mem_of_mem_trimEnd {c : Char} {s : List Char} (h : c ∈ trimEnd s) : c ∈ s :=
  (isPrefix_dropEndWhile isBlank s).subset h

theorem trimStart_append_of_blank {t : List Char} (s : List Char) (h : ∀ c ∈ t, isBlank c) :
    trimStart (t ++ s) = trimStart s := List.dropWhile_append_of_pos h

theorem trimStart_eq_self {s : List Char} (h : startsBlank s = false) : trimStart s = s := by
  cases s with
  | nil => rfl
  | cons c s => exact List.dropWhile_cons_of_neg (by simpa using h)

theorem startsBlank_trimStart (s : List Char) : startsBlank (trimStart s) = false := by
  have h := List.head?_dropWhile_not isBlank s
  rw [startsBlank, trimStart]
  cases hs : (s.dropWhile isBlank).head? with
  | none => rfl
  | some c => simpa [hs] using h

theorem trim_eq_self {s : List Char} (h : startsBlank s = false) (h' : endsBlank s = false) :
    trim s = s := by
  rw [trim, trimStart_eq_self h, trimEnd_eq_self h']

theorem trim_append_of_blank {t : List Char} (s : List Char) (h : ∀ c ∈ t, isBlank c) :
    trim (t ++ s) = trim s := by
  rw [trim, trimStart_append_of_blank s h, trim]

@[simp] theorem endsBlank_trim (s : List Char) : endsBlank (trim s) = false :=
  endsBlank_trimEnd _

@[simp] theorem startsBlank_trim (s : List Char) : startsBlank (trim s) = false := by
  have h := startsBlank_trimStart s
  rw [trim]
  obtain ⟨r, hr⟩ := isPrefix_dropEndWhile isBlank (trimStart s)
  rw [← trimEnd] at hr
  cases ht : trimEnd (trimStart s) with
  | nil => rfl
  | cons c t =>
    rw [ht] at hr
    rw [← hr] at h
    exact h

theorem mem_of_mem_trim {c : Char} {s : List Char} (h : c ∈ trim s) : c ∈ s :=
  (List.dropWhile_sublist _).subset (mem_of_mem_trimEnd h)

theorem length_trim_le (s : List Char) : (trim s).length ≤ s.length :=
  (isPrefix_dropEndWhile isBlank _).length_le.trans (List.dropWhile_sublist _).length_le

/-- Trimming takes a part out of a text. -/
theorem isInfix_trim (s : List Char) : trim s <:+: s :=
  (isPrefix_dropEndWhile isBlank _).isInfix.trans (List.dropWhile_suffix isBlank).isInfix

/-! ## Lines -/

theorem splitAt_eq_splitOn (sep : Char) (s : List Char) : splitAt sep s = s.splitOn sep := by
  induction s with
  | nil => rfl
  | cons c r ih =>
    rw [splitAt, List.splitOn_cons_eq_if_modifyHead, ih]
    split
    · next h => exact absurd h (List.splitOn_ne_nil sep r)
    · next l ls h => by_cases hc : c = sep <;> simp [hc, h]

/-- No piece contains the separator. -/
theorem notMem_of_mem_splitAt {sep : Char} {s l : List Char} (h : l ∈ splitAt sep s) : sep ∉ l := by
  induction s generalizing l with
  | nil =>
    rw [List.mem_singleton.1 h]
    exact List.not_mem_nil
  | cons c r ih =>
    rw [splitAt] at h
    split at h
    next hr => exact absurd hr (splitAt_ne_nil sep r)
    next m ms hr =>
      have hm : sep ∉ m := ih (hr ▸ List.mem_cons_self)
      have hms {l : List Char} (hl : l ∈ ms) : sep ∉ l := ih (hr ▸ List.mem_cons_of_mem m hl)
      split at h
      next =>
        rcases List.mem_cons.1 h with rfl | h
        · exact List.not_mem_nil
        · exact (List.mem_cons.1 h).elim (· ▸ hm) hms
      next hc =>
        rcases List.mem_cons.1 h with rfl | h
        · rw [List.mem_cons]
          exact not_or.2 ⟨Ne.symm hc, hm⟩
        · exact hms h

theorem mem_of_mem_splitAt {sep c : Char} {s l : List Char} (hl : l ∈ splitAt sep s)
    (hc : c ∈ l) : c ∈ s := by
  induction s generalizing l with
  | nil =>
    rw [List.mem_singleton.1 hl] at hc
    exact hc
  | cons d r ih =>
    rw [splitAt] at hl
    split at hl
    next hr => exact absurd hr (splitAt_ne_nil sep r)
    next m ms hr =>
      have hm (h : c ∈ m) : c ∈ r := ih (hr ▸ List.mem_cons_self) h
      have hms {l : List Char} (hl : l ∈ ms) (h : c ∈ l) : c ∈ r :=
        ih (hr ▸ List.mem_cons_of_mem m hl) h
      split at hl
      next =>
        rcases List.mem_cons.1 hl with rfl | hl
        · exact absurd hc List.not_mem_nil
        · exact List.mem_cons_of_mem d ((List.mem_cons.1 hl).elim (fun h ↦ hm (h ▸ hc)) (hms · hc))
      next =>
        rcases List.mem_cons.1 hl with rfl | hl
        · exact List.mem_cons.2 ((List.mem_cons.1 hc).imp_right hm)
        · exact List.mem_cons_of_mem d (hms hl hc)

theorem splitAt_cons_self (sep : Char) (s : List Char) :
    splitAt sep (sep :: s) = [] :: splitAt sep s := by
  rw [splitAt]
  split
  next h => exact absurd h (splitAt_ne_nil sep s)
  next l ls h => rw [if_pos rfl, h]

theorem joinWith_eq_intercalate (sep : List Char) (ls : List (List Char)) :
    joinWith sep ls = sep.intercalate ls := by
  induction ls with
  | nil => rfl
  | cons l ls ih =>
    cases ls with
    | nil => simp [joinWith, List.intercalate]
    | cons m ls =>
      rw [joinWith, ih]
      simp [List.intercalate]

theorem joinWith_cons_cons (sep l m : List Char) (ls : List (List Char)) :
    joinWith sep (l :: m :: ls) = l ++ sep ++ joinWith sep (m :: ls) := rfl

theorem joinWith_append (sep : List Char) {ls ms : List (List Char)} (hl : ls ≠ []) (hm : ms ≠ []) :
    joinWith sep (ls ++ ms) = joinWith sep ls ++ sep ++ joinWith sep ms := by
  induction ls with
  | nil => exact absurd rfl hl
  | cons l ls ih =>
    cases ls with
    | nil =>
      obtain ⟨m, ms, rfl⟩ := List.exists_cons_of_ne_nil hm
      rfl
    | cons k ls =>
      have ih := ih (List.cons_ne_nil k ls)
      rw [List.cons_append] at ih
      rw [List.cons_append, List.cons_append, joinWith_cons_cons, joinWith_cons_cons, ih]
      simp only [List.append_assoc]

/-- Pieces can be joined in groups first. -/
theorem joinWith_flatten (sep : List Char) {gs : List (List (List Char))} (h : ∀ g ∈ gs, g ≠ []) :
    joinWith sep gs.flatten = joinWith sep (gs.map (joinWith sep)) := by
  induction gs with
  | nil => rfl
  | cons g gs ih =>
    obtain ⟨hg, hgs⟩ := List.forall_mem_cons.1 h
    cases gs with
    | nil => rw [List.flatten_singleton, List.map_singleton, joinWith]
    | cons k gs =>
      have hk : (k :: gs).flatten ≠ [] :=
        List.append_ne_nil_of_left_ne_nil (hgs k List.mem_cons_self) gs.flatten
      rw [List.flatten_cons, joinWith_append sep hg hk, ih hgs]
      rfl

theorem splitAt_joinWith {sep : Char} {ls : List (List Char)} (hne : ls ≠ [])
    (h : ∀ l ∈ ls, sep ∉ l) : splitAt sep (joinWith [sep] ls) = ls := by
  rw [splitAt_eq_splitOn, joinWith_eq_intercalate, List.splitOn_intercalate _ h hne]

/-- Pieces that hold separators themselves are cut there too. -/
theorem splitAt_joinWith_flatMap (sep : Char) {ls : List (List Char)} (hne : ls ≠ []) :
    splitAt sep (joinWith [sep] ls) = ls.flatMap (splitAt sep) := by
  induction ls with
  | nil => exact absurd rfl hne
  | cons l ls ih =>
    cases ls with
    | nil => rw [joinWith, List.flatMap_singleton]
    | cons m ls =>
      have hcut (s t : List Char) :
          splitAt sep (s ++ sep :: t) = splitAt sep s ++ splitAt sep t := by
        simp only [splitAt_eq_splitOn]
        exact List.splitOnP_append_cons s t (beq_self_eq_true sep)
      rw [joinWith_cons_cons, List.append_assoc, List.singleton_append, hcut,
        ih (List.cons_ne_nil m ls),
        ← List.flatMap_cons]

theorem lines_ne_nil (s : List Char) : lines s ≠ [] := splitAt_ne_nil '\n' s

@[simp] theorem lines_nil : lines [] = [[]] := rfl

theorem lines_of_notMem {s : List Char} (h : '\n' ∉ s) : lines s = [s] := by
  rw [lines, splitAt_eq_splitOn, List.splitOn_eq_singleton h]

theorem lines_append_newline {s : List Char} (h : '\n' ∉ s) (t : List Char) :
    lines (s ++ '\n' :: t) = s :: lines t := by
  rw [lines, splitAt_eq_splitOn, List.splitOn_append_cons_self_of_not_mem h, lines,
    splitAt_eq_splitOn]

/-- A text in front of the first line feed belongs to the first line. -/
theorem lines_append {s : List Char} (h : '\n' ∉ s) (t : List Char) :
    lines (s ++ t) = (lines t).modifyHead (s ++ ·) := by
  induction s with
  | nil => cases ht : lines t <;> simp [ht]
  | cons c s ih =>
    obtain ⟨hc, hs⟩ := not_or.1 (List.mem_cons.not.1 h)
    rw [List.cons_append, lines, splitAt_eq_splitOn, List.splitOn_cons_eq_if_modifyHead,
      ← splitAt_eq_splitOn, ← lines, ih hs]
    cases lines t with
    | nil => simp [Ne.symm hc]
    | cons l ls => simp [Ne.symm hc]

theorem notMem_of_mem_lines {s l : List Char} (h : l ∈ lines s) : '\n' ∉ l :=
  notMem_of_mem_splitAt h

theorem lines_unlines {ls : List (List Char)} (hne : ls ≠ []) (h : ∀ l ∈ ls, '\n' ∉ l) :
    lines (unlines ls) = ls := splitAt_joinWith hne h

/-! ## Texts that consist of whole lines -/

/-- The text in which every one of the lines is ended by a line feed. -/
def terminated (ls : List (List Char)) : List Char := ls.flatMap (· ++ ['\n'])

@[simp] theorem terminated_nil : terminated [] = [] := rfl

@[simp] theorem terminated_cons (l : List Char) (ls : List (List Char)) :
    terminated (l :: ls) = l ++ '\n' :: terminated ls := by
  simp [terminated]

@[simp] theorem terminated_append (ls ms : List (List Char)) :
    terminated (ls ++ ms) = terminated ls ++ terminated ms := List.flatMap_append

theorem terminated_lines (s : List Char) : terminated (lines s) = s ++ ['\n'] := by
  have h (ls : List (List Char)) (hne : ls ≠ []) : terminated ls = unlines ls ++ ['\n'] := by
    induction ls with
    | nil => exact absurd rfl hne
    | cons l ls ih =>
      cases ls with
      | nil => simp [unlines, joinWith]
      | cons m ls => simpa [unlines, joinWith] using ih (by simp)
  rw [h _ (lines_ne_nil s), unlines_lines]

theorem lines_terminated_append {ls : List (List Char)} (h : ∀ l ∈ ls, '\n' ∉ l)
    (t : List Char) : lines (terminated ls ++ t) = ls ++ lines t := by
  induction ls with
  | nil => rfl
  | cons l ls ih =>
    obtain ⟨hl, hls⟩ := List.forall_mem_cons.1 h
    rw [terminated_cons, List.append_assoc, List.cons_append, lines_append_newline hl, ih hls,
      List.cons_append]

/-! ## Empty lines at both ends -/

/-- Neither the first nor the last line is empty. -/
def IsFilled (ls : List (List Char)) : Prop := ls.head? ≠ some [] ∧ ls.getLast? ≠ some []

theorem isFilled_trimEmptyLines (ls : List (List Char)) : IsFilled (trimEmptyLines ls) := by
  constructor
  · intro h
    cases head?_dropEndWhile_dropWhile h
  · intro h
    have hl := getLast?_dropEndWhile List.isEmpty (ls.dropWhile List.isEmpty)
    rw [← trimEmptyLines, h] at hl
    cases hl

theorem mem_of_mem_trimEmptyLines {l : List Char} {ls : List (List Char)}
    (h : l ∈ trimEmptyLines ls) : l ∈ ls :=
  (List.dropWhile_sublist _).subset ((isPrefix_dropEndWhile _ _).subset h)

@[simp] theorem trimEmptyLines_nil_cons (ls : List (List Char)) :
    trimEmptyLines ([] :: ls) = trimEmptyLines ls := rfl

theorem trimEmptyLines_append_of_forall (ls : List (List Char)) {es : List (List Char)}
    (h : ∀ l ∈ es, l = []) : trimEmptyLines (ls ++ es) = trimEmptyLines ls := by
  have he : ∀ l ∈ es, List.isEmpty l = true := fun l hl ↦ by simp [h l hl]
  rw [trimEmptyLines, List.dropWhile_append]
  by_cases hd : ls.dropWhile List.isEmpty = []
  · rw [hd, if_pos List.isEmpty_nil, List.dropWhile_eq_nil_iff.2 he, trimEmptyLines, hd]
  · rw [if_neg (by simpa using hd), dropEndWhile_append_of_pos _ he, trimEmptyLines]

theorem trimEmptyLines_cons_of_ne_nil {f : List Char} (hf : f ≠ []) (ls : List (List Char)) :
    trimEmptyLines (f :: ls) = f :: dropEndWhile List.isEmpty ls := by
  have hf : List.isEmpty f = false := by simpa using hf
  rw [trimEmptyLines, List.dropWhile_cons_of_neg (by simp [hf]), dropEndWhile_cons, hf]
  by_cases h : dropEndWhile List.isEmpty ls = [] <;> simp [h]

theorem trimEmptyLines_eq_self {ls : List (List Char)} (h : IsFilled ls) :
    trimEmptyLines ls = ls := by
  cases ls with
  | nil => rfl
  | cons f ls =>
    have hf : f ≠ [] := fun hf ↦ h.1 (by simp [hf])
    rw [trimEmptyLines, List.dropWhile_cons_of_neg (by simpa using hf)]
    refine dropEndWhile_eq_self ?_
    cases hl : (f :: ls).getLast? with
    | none => rfl
    | some l =>
      have hl' : l ≠ [] := fun hl' ↦ h.2 (hl' ▸ hl)
      simpa using hl'

/-! ## The lines of a part of a text -/

theorem lines_cons_newline (s : List Char) : lines ('\n' :: s) = [] :: lines s :=
  lines_append_newline List.not_mem_nil s

theorem lines_cons {c : Char} (h : c ≠ '\n') (s : List Char) :
    lines (c :: s) = (lines s).modifyHead (c :: ·) :=
  lines_append (s := [c]) (by simpa using Ne.symm h) s

/-- With something in front, the lines move down by as many lines as end there, and nothing is lost
from them. -/
theorem lines_append_left (pre : List Char) {s l : List Char} {j : Nat}
    (h : (lines s)[j]? = some l) :
    ∃ m, (lines (pre ++ s))[pre.count '\n' + j]? = some m ∧ l <:+ m := by
  induction pre with
  | nil => exact ⟨l, by simpa using h, List.suffix_rfl⟩
  | cons c pre ih =>
    obtain ⟨m, hm, hl⟩ := ih
    by_cases hc : c = '\n'
    · subst hc
      refine ⟨m, ?_, hl⟩
      rw [List.cons_append, lines_cons_newline, List.count_cons_self, Nat.add_right_comm,
        List.getElem?_cons_succ, hm]
    · rw [List.cons_append, lines_cons hc, List.count_cons_of_ne hc, List.getElem?_modifyHead, hm]
      split
      · exact ⟨c :: m, rfl, hl.trans (List.suffix_cons c m)⟩
      · exact ⟨m, rfl, hl⟩

/-- With something behind, every line stays where it is and starts as before. -/
theorem lines_append_right {s l : List Char} {j : Nat} (h : (lines s)[j]? = some l)
    (post : List Char) : ∃ m, (lines (s ++ post))[j]? = some m ∧ l <+: m := by
  induction s generalizing j l with
  | nil =>
    match j, h with
    | 0, h =>
      obtain rfl : [] = l := Option.some.inj h
      obtain ⟨m, ms, hm⟩ := List.exists_cons_of_ne_nil (lines_ne_nil post)
      exact ⟨m, by simp [hm], List.nil_prefix⟩
  | cons c s ih =>
    by_cases hc : c = '\n'
    · subst hc
      rw [lines_cons_newline] at h
      rw [List.cons_append, lines_cons_newline]
      cases j with
      | zero => exact ⟨[], rfl, Option.some.inj h ▸ List.nil_prefix⟩
      | succ j => exact ih h
    · rw [lines_cons hc, List.getElem?_modifyHead] at h
      rw [List.cons_append, lines_cons hc, List.getElem?_modifyHead]
      split at h
      · next hj =>
        obtain ⟨l, hl, rfl⟩ := Option.map_eq_some_iff.1 h
        obtain ⟨m, hm, hlm⟩ := ih hl
        exact ⟨c :: m, by rw [hm, if_pos hj]; rfl, List.cons_prefix_cons.2 ⟨rfl, hlm⟩⟩
      · next hj =>
        obtain ⟨m, hm, hlm⟩ := ih h
        exact ⟨m, by rw [hm, if_neg hj], hlm⟩

/-- Each line of a part of a text is part of a line of the text. -/
theorem lines_append_append (pre : List Char) {s l : List Char} {j : Nat}
    (h : (lines s)[j]? = some l) (post : List Char) :
    ∃ m, (lines (pre ++ s ++ post))[pre.count '\n' + j]? = some m ∧ l <:+: m := by
  obtain ⟨m, hm, hl⟩ := lines_append_left pre h
  obtain ⟨n, hn, hm⟩ := lines_append_right hm post
  exact ⟨n, hn, hl.isInfix.trans hm.isInfix⟩

end JavaOutline.Text
