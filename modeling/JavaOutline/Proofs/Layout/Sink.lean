import JavaOutline.Layout.Sink
import JavaOutline.Proofs.Text.Lines
import Mathlib.Logic.Function.Iterate

/-! # What a sink holds

Ending a line is writing a line feed, so a sequence of writes is one write of one text.  Whole lines
written at the start of a line appear with the margin in force in front of each that is not empty.
-/

namespace JavaOutline.Sink

open Text

/-- The indentation that the depth in force asks for. -/
def margin (s : Sink) : List Char := (repeated s.depth s.unit).toList

/-- A line behind a margin; an empty line has none. -/
def indented (pre l : List Char) : List Char := if l = [] then [] else pre ++ l

@[simp] theorem indented_nil (pre : List Char) : indented pre [] = [] := rfl

@[simp] theorem indented_cons (pre : List Char) (c : Char) (l : List Char) :
    indented pre (c :: l) = pre ++ c :: l := rfl

@[simp] theorem nil_indented (l : List Char) : indented [] l = l := by
  cases l <;> rfl

theorem notMem_indented {pre l : List Char} {c : Char} (hp : c ∉ pre) (hl : c ∉ l) :
    c ∉ indented pre l := by
  rw [indented]
  split
  · exact List.not_mem_nil
  · exact fun h ↦ (List.mem_append.1 h).elim hp hl

theorem mem_repeated {c : Char} {n : Nat} {u : String} (h : c ∈ (repeated n u).toList) :
    c ∈ u.toList := by
  induction n with
  | zero => simp [repeated] at h
  | succ n ih =>
    rw [repeated, List.replicate_succ, String.join_cons, String.toList_append,
      List.mem_append] at h
    exact h.elim id ih

/-! ## Pieces of a line -/

/-- What a piece has in front of it: the margin at the start of a line, nothing behind that. -/
def lead (s : Sink) : List Char := if s.atLineStart then s.margin else []

theorem piece_eq (s : Sink) (l : List Char) :
    s.piece l = { s with
      text := s.text ++ String.ofList (indented s.lead l)
      atLineStart := s.atLineStart && l.isEmpty } := by
  cases l with
  | nil => simp [piece]
  | cons c l =>
    by_cases hs : s.atLineStart
    · simp [piece, lead, hs, margin, String.ext_iff]
    · simp [piece, lead, hs]

@[simp] theorem piece_nil (s : Sink) : s.piece [] = s := rfl

theorem atLineStart_piece_cons (s : Sink) (c : Char) (l : List Char) :
    (s.piece (c :: l)).atLineStart = false := by
  rw [piece_eq, List.isEmpty_cons, Bool.and_false]

/-- A piece that is not empty begins the line, so nothing is put in front of what follows. -/
theorem lead_piece_cons (s : Sink) (c : Char) (l : List Char) :
    (s.piece (c :: l)).lead = [] := by
  rw [lead, atLineStart_piece_cons, if_neg Bool.false_ne_true]

/-- Two pieces in a row are one piece. -/
theorem piece_append (s : Sink) (a b : List Char) : s.piece (a ++ b) = (s.piece a).piece b := by
  cases a with
  | nil => rfl
  | cons c a =>
    rw [piece_eq (s.piece (c :: a)), lead_piece_cons, piece_eq, piece_eq]
    simp [String.ext_iff]

theorem toList_text_newline (s : Sink) :
    s.newline.text.toList = s.text.toList ++ s.lineEnd.toList := String.toList_append

/-! ## Writing -/

/-- Writing a text is writing its lines with their ends between them. -/
theorem write_of_lines {t l : List Char} {ls : List (List Char)} (h : lines t = l :: ls)
    (s : Sink) :
    s.write (String.ofList t) = ls.foldl (fun s l ↦ s.newline.piece l) (s.piece l) := by
  rw [write, String.toList_ofList, h]

@[simp] theorem write_empty (s : Sink) : s.write "" = s := rfl

theorem write_of_notMem {l : List Char} (hl : '\n' ∉ l) (s : Sink) :
    s.write (String.ofList l) = s.piece l :=
  write_of_lines (lines_of_notMem hl) s

theorem write_newline_cons (l : List Char) (s : Sink) :
    s.write (String.ofList ('\n' :: l)) = s.newline.write (String.ofList l) := by
  obtain ⟨m, ms, hm⟩ := List.exists_cons_of_ne_nil (lines_ne_nil l)
  have hlines : lines ('\n' :: l) = [] :: m :: ms := by rw [lines_cons_newline, hm]
  rw [write_of_lines hlines, write_of_lines hm]
  rfl

theorem write_cons {c : Char} (hc : c ≠ '\n') (l : List Char) (s : Sink) :
    s.write (String.ofList (c :: l)) = (s.piece [c]).write (String.ofList l) := by
  obtain ⟨m, ms, hm⟩ := List.exists_cons_of_ne_nil (lines_ne_nil l)
  have hlines : lines (c :: l) = (c :: m) :: ms := by rw [lines_cons hc, hm, List.modifyHead_cons]
  rw [write_of_lines hlines, write_of_lines hm, ← piece_append, List.singleton_append]

theorem write_ofList_append (s : Sink) (a b : List Char) :
    s.write (String.ofList (a ++ b)) = (s.write (String.ofList a)).write (String.ofList b) := by
  induction a generalizing s with
  | nil => rfl
  | cons c a ih =>
    rw [List.cons_append]
    by_cases hc : c = '\n'
    · rw [hc, write_newline_cons, write_newline_cons, ih]
    · rw [write_cons hc, write_cons hc, ih]

/-- Two texts in a row are one text. -/
theorem write_append (s : Sink) (a b : String) : s.write (a ++ b) = (s.write a).write b := by
  have h := s.write_ofList_append a.toList b.toList
  rwa [← String.toList_append, String.ofList_toList, String.ofList_toList,
    String.ofList_toList] at h

theorem newline_eq_write (s : Sink) : s.newline = s.write "\n" := rfl

/-- What is written in front of a line is part of it. -/
theorem write_writeLine (s : Sink) (a b : String) :
    (s.write a).writeLine b = s.writeLine (a ++ b) := by
  rw [writeLine, writeLine, write_append]

/-- Writing changes the text and where on a line the sink is, and nothing else. -/
theorem exists_write (s : Sink) (t : String) :
    ∃ text atLineStart, s.write t = { s with text, atLineStart } := by
  rw [← String.ofList_toList (s := t)]
  induction t.toList generalizing s with
  | nil => exact ⟨s.text, s.atLineStart, rfl⟩
  | cons c l ih =>
    by_cases hc : c = '\n'
    · obtain ⟨text, atLineStart, h⟩ := ih s.newline
      exact ⟨text, atLineStart, by rw [hc, write_newline_cons, h, newline]⟩
    · obtain ⟨text, atLineStart, h⟩ := ih (s.piece [c])
      exact ⟨text, atLineStart, by rw [write_cons hc, h, piece_eq]⟩

@[simp] theorem depth_write (s : Sink) (t : String) : (s.write t).depth = s.depth := by
  obtain ⟨_, _, h⟩ := s.exists_write t
  rw [h]

@[simp] theorem unit_write (s : Sink) (t : String) : (s.write t).unit = s.unit := by
  obtain ⟨_, _, h⟩ := s.exists_write t
  rw [h]

@[simp] theorem lineEnd_write (s : Sink) (t : String) : (s.write t).lineEnd = s.lineEnd := by
  obtain ⟨_, _, h⟩ := s.exists_write t
  rw [h]

theorem writeLine_eq_write (s : Sink) (t : String) : s.writeLine t = s.write (t ++ "\n") := by
  rw [write_append, ← newline_eq_write, writeLine]

/-- A line that is written at the start of a line, with its end. -/
theorem write_line {s : Sink} (hs : s.atLineStart = true) (he : s.lineEnd = "\n")
    {l : List Char} (hl : '\n' ∉ l) :
    s.write (String.ofList (l ++ ['\n'])) =
      { s with text := s.text ++ String.ofList (indented s.margin l ++ ['\n']) } := by
  have hlead : s.lead = s.margin := if_pos hs
  have hend : (s.piece l).write (String.ofList ['\n']) = (s.piece l).newline := rfl
  rw [write_ofList_append, write_of_notMem hl, hend, newline, piece_eq, hlead]
  simp [String.ext_iff, hs, he]

/-- Whole lines written at the start of a line: each that is not empty stands behind the margin,
and the sink is at the start of a line again. -/
theorem write_terminated {s : Sink} (hs : s.atLineStart = true) (he : s.lineEnd = "\n")
    {ls : List (List Char)} (hls : ∀ l ∈ ls, '\n' ∉ l) :
    s.write (String.ofList (terminated ls)) =
      { s with text := s.text ++ String.ofList (terminated (ls.map (indented s.margin))) } := by
  induction ls generalizing s with
  | nil => simp
  | cons l ls ih =>
    obtain ⟨hl, hls⟩ := List.forall_mem_cons.1 hls
    have hs' := ih (s := { s with text := s.text ++ String.ofList (indented s.margin l ++ ['\n']) })
      hs he hls
    rw [show terminated (l :: ls) = (l ++ ['\n']) ++ terminated ls by simp, write_ofList_append,
      write_line hs he hl, hs']
    simp [String.ext_iff, margin]

/-! ## Depth -/

theorem iterate_indent (s : Sink) (k : Nat) :
    indent^[k] s = { s with depth := s.depth + k } := by
  induction k generalizing s with
  | zero => rfl
  | succ k ih => rw [Function.iterate_succ_apply, ih, indent, Nat.add_assoc, Nat.add_comm 1 k]

end JavaOutline.Sink
