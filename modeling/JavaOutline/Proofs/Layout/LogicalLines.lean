import JavaOutline.Proofs.Layout.Sink

/-! # Sinks and logical lines

Whatever is called on a fresh sink, what it holds depends only on the characters that are written,
each with the depth in force at that moment: they are cut into logical lines, and a line that is not
empty stands behind the indentation of its first character (`Sink.run_lays_out_lines`).  A sink in
the middle of its calls knows no more than whether its current line has begun, so the invariant is
what it will still append (`Sink.continuation`). -/

namespace JavaOutline.Sink

open Text

/-! ## Calls -/

/-- A call on a sink. -/
inductive Call where
  | write (t : String)
  | newline
  | indent
  | deindent
deriving DecidableEq, Repr

/-- The sink after a call. -/
def call (s : Sink) : Call → Sink
  | .write t => s.write t
  | .newline => s.newline
  | .indent => s.indent
  | .deindent => s.deindent

/-- The sink after some calls. -/
def run (s : Sink) (cs : List Call) : Sink := cs.foldl call s

/-! ## Logical lines -/

/-- The characters that calls write, each with the depth in force; a call of `newline` counts as a
line feed, and no depth is below zero. -/
def marks : Nat → List Call → List (Nat × Char)
  | _, [] => []
  | d, .write t :: cs => t.toList.map (d, ·) ++ marks d cs
  | d, .newline :: cs => (d, '\n') :: marks d cs
  | d, .indent :: cs => marks (d + 1) cs
  | d, .deindent :: cs => marks (d - 1) cs

/-- Characters cut into logical lines at line feeds. -/
def logicalLines (ms : List (Nat × Char)) : List (List (Nat × Char)) :=
  ms.splitOnP fun m ↦ m.2 == '\n'

/-- A logical line behind the indentation of its first character; an empty line has none. -/
def laidOut (unit : String) : List (Nat × Char) → List Char
  | [] => []
  | (d, c) :: ms => (repeated d unit).toList ++ c :: ms.map Prod.snd

/-- Logical lines, each laid out, with the line end between them. -/
def layout (unit lineEnd : String) (ls : List (List (Nat × Char))) : List Char :=
  lineEnd.toList.intercalate (ls.map (laidOut unit))

theorem logicalLines_newline (d : Nat) (ms : List (Nat × Char)) :
    logicalLines ((d, '\n') :: ms) = [] :: logicalLines ms := by
  rw [logicalLines, List.splitOnP_cons_eq_if_modifyHead, if_pos (beq_self_eq_true '\n')]
  rfl

theorem logicalLines_cons {c : Char} (hc : c ≠ '\n') (d : Nat) (ms : List (Nat × Char)) :
    logicalLines ((d, c) :: ms) = (logicalLines ms).modifyHead ((d, c) :: ·) := by
  rw [logicalLines, List.splitOnP_cons_eq_if_modifyHead, if_neg (by simpa using hc)]
  rfl

theorem exists_logicalLines (ms : List (Nat × Char)) : ∃ l ls, logicalLines ms = l :: ls :=
  List.exists_cons_of_ne_nil (List.splitOnP_ne_nil _ ms)

theorem intercalate_append_cons (sep a b : List Char) (ls : List (List Char)) :
    sep.intercalate ((a ++ b) :: ls) = a ++ sep.intercalate (b :: ls) := by
  cases ls with
  | nil => rw [List.intercalate_singleton, List.intercalate_singleton]
  | cons m ls =>
    rw [List.intercalate_cons_cons, List.intercalate_cons_cons]
    simp only [List.append_assoc]

/-! ## What is still to come -/

/-- The rest of the line that the sink is on: laid out if nothing stands there yet, and otherwise as
it is. -/
def lineRest (s : Sink) (l : List (Nat × Char)) : List Char :=
  if s.atLineStart then laidOut s.unit l else l.map Prod.snd

/-- What a sink appends for characters that are still to come. -/
def continuation (s : Sink) (ms : List (Nat × Char)) : List Char :=
  match logicalLines ms with
  | [] => []
  | l :: ls => s.lineEnd.toList.intercalate (s.lineRest l :: ls.map (laidOut s.unit))

theorem lineRest_nil (s : Sink) : s.lineRest [] = [] := by
  rw [lineRest]
  split <;> rfl

theorem continuation_nil (s : Sink) : s.continuation [] = [] := by
  have h : s.continuation [] = s.lineEnd.toList.intercalate [s.lineRest []] := rfl
  rw [h, lineRest_nil, List.intercalate_singleton]

/-- At the start of a line, all lines to come are laid out. -/
theorem continuation_of_atLineStart {s : Sink} (hs : s.atLineStart = true)
    (ms : List (Nat × Char)) :
    s.continuation ms = layout s.unit s.lineEnd (logicalLines ms) := by
  obtain ⟨l, ls, h⟩ := exists_logicalLines ms
  have hline : s.lineRest l = laidOut s.unit l := if_pos hs
  rw [continuation, h]
  dsimp only
  rw [hline, layout, List.map_cons]

theorem continuation_newline (s : Sink) (d : Nat) (ms : List (Nat × Char)) :
    s.continuation ((d, '\n') :: ms) = s.lineEnd.toList ++ s.newline.continuation ms := by
  obtain ⟨l, ls, h⟩ := exists_logicalLines ms
  have hnext : s.newline.continuation ms =
      s.lineEnd.toList.intercalate ((l :: ls).map (laidOut s.unit)) := by
    rw [continuation_of_atLineStart rfl, layout, h]
    rfl
  rw [hnext, continuation, logicalLines_newline, h]
  dsimp only
  rw [lineRest_nil, List.map_cons, List.intercalate_cons_cons, List.nil_append]

/-- One character is put behind what the line needs in front of it; the rest of the line follows as
it is. -/
theorem lineRest_cons (s : Sink) (c : Char) (l : List (Nat × Char)) :
    s.lineRest ((s.depth, c) :: l) = indented s.lead [c] ++ (s.piece [c]).lineRest l := by
  have hrest : (s.piece [c]).lineRest l = l.map Prod.snd := by
    rw [lineRest, atLineStart_piece_cons, if_neg Bool.false_ne_true]
  rw [hrest, lineRest, lead, indented_cons]
  split
  · rw [laidOut, margin, List.append_assoc, List.singleton_append]
  · rfl

theorem continuation_cons (s : Sink) {c : Char} (hc : c ≠ '\n') (ms : List (Nat × Char)) :
    s.text.toList ++ s.continuation ((s.depth, c) :: ms) =
      (s.piece [c]).text.toList ++ (s.piece [c]).continuation ms := by
  obtain ⟨l, ls, h⟩ := exists_logicalLines ms
  have htext : (s.piece [c]).text.toList = s.text.toList ++ indented s.lead [c] := by
    rw [piece_eq, String.toList_append, String.toList_ofList]
  have hlineEnd : (s.piece [c]).lineEnd = s.lineEnd := by rw [piece_eq]
  have hunit : (s.piece [c]).unit = s.unit := by rw [piece_eq]
  rw [continuation, continuation, logicalLines_cons hc, h, List.modifyHead_cons, htext]
  dsimp only
  rw [lineRest_cons, hlineEnd, hunit, intercalate_append_cons, List.append_assoc]

/-! ## Runs -/

theorem depth_piece (s : Sink) (l : List Char) : (s.piece l).depth = s.depth := by rw [piece_eq]

/-- A text that is written is the first of what is to come. -/
theorem continuation_write (s : Sink) (t : List Char) (ms : List (Nat × Char)) :
    s.text.toList ++ s.continuation (t.map (s.depth, ·) ++ ms) =
      (s.write (String.ofList t)).text.toList ++
        (s.write (String.ofList t)).continuation ms := by
  induction t generalizing s with
  | nil => rfl
  | cons c t ih =>
    rw [List.map_cons, List.cons_append]
    by_cases hc : c = '\n'
    · subst hc
      have ih := ih s.newline
      rw [toList_text_newline, List.append_assoc] at ih
      rw [continuation_newline, write_newline_cons, ← ih]
      rfl
    · have ih := ih (s.piece [c])
      rw [depth_piece] at ih
      rw [continuation_cons s hc, write_cons hc, ih]

/-- What a sink holds after some calls: what it held, and what is to come for the characters that
the calls write. -/
theorem toList_text_run (s : Sink) (cs : List Call) :
    (s.run cs).text.toList = s.text.toList ++ s.continuation (marks s.depth cs) := by
  induction cs generalizing s with
  | nil => rw [marks, continuation_nil, List.append_nil, run, List.foldl_nil]
  | cons c cs ih =>
    have hrun : s.run (c :: cs) = (s.call c).run cs := rfl
    rw [hrun, ih]
    cases c with
    | write t =>
      have h := s.continuation_write t.toList (marks s.depth cs)
      rw [String.ofList_toList] at h
      rw [call, depth_write, marks, h]
    | newline =>
      rw [call, toList_text_newline, marks, continuation_newline, List.append_assoc]
      rfl
    | indent => rfl
    | deindent => rfl

/-- A line that has not begun gets some indentation, and is continued like one that has. -/
theorem exists_continuation_eq (s : Sink) (ms : List (Nat × Char)) :
    ∃ gap, (∀ c ∈ gap, c ∈ s.unit.toList) ∧
      s.continuation ms = gap ++ continuation { s with atLineStart := false } ms := by
  obtain ⟨l, ls, h⟩ := exists_logicalLines ms
  have hline : ∃ gap, (∀ c ∈ gap, c ∈ s.unit.toList) ∧ s.lineRest l = gap ++ l.map Prod.snd := by
    rw [lineRest]
    split
    · cases l with
      | nil => exact ⟨[], nofun, rfl⟩
      | cons m l => exact ⟨(repeated m.1 s.unit).toList, fun _ ↦ mem_repeated, rfl⟩
    · exact ⟨[], nofun, rfl⟩
  obtain ⟨gap, hgap, hline⟩ := hline
  have hbegun : lineRest { s with atLineStart := false } l = l.map Prod.snd := rfl
  refine ⟨gap, hgap, ?_⟩
  rw [continuation, continuation, h]
  dsimp only
  rw [hline, hbegun, intercalate_append_cons]

theorem toList_text_write (s : Sink) (t : String) :
    (s.write t).text.toList = s.text.toList ++ s.continuation (t.toList.map (s.depth, ·)) := by
  have h := s.toList_text_run [.write t]
  rwa [marks, marks, List.append_nil] at h

theorem run_append (s : Sink) (cs ds : List Call) : s.run (cs ++ ds) = (s.run cs).run ds :=
  List.foldl_append

/-- After any calls a fresh sink holds the logical lines of the characters that were written, each
laid out, with the line end between them; and two texts written in a row cannot be told apart from
one, whatever came before and whatever follows. -/
theorem run_lays_out_lines (unit lineEnd : String) :
    (∀ cs : List Call, (run { unit, lineEnd } cs).text =
      String.ofList (layout unit lineEnd (logicalLines (marks 0 cs)))) ∧
    ∀ (before after : List Call) (a b : String),
      run { unit, lineEnd } (before ++ .write a :: .write b :: after) =
        run { unit, lineEnd } (before ++ .write (a ++ b) :: after) := by
  constructor
  · intro cs
    apply String.toList_inj.1
    rw [String.toList_ofList, toList_text_run, continuation_of_atLineStart rfl]
    rfl
  · intro before after a b
    have hwrite (s : Sink) : s.run (.write a :: .write b :: after) =
        s.run (.write (a ++ b) :: after) := by
      show ((s.write a).write b).run after = (s.write (a ++ b)).run after
      rw [write_append]
    rw [run_append, run_append, hwrite]

/-- A line keeps the indentation of its first character, and an empty piece begins no line. -/
example : (run { unit := "  ", lineEnd := "\n" }
    [.indent, .write "a", .indent, .write "b\n", .write "", .deindent, .write "c\n\nd"]).text =
      "  ab\n  c\n\n  d" := by decide

end JavaOutline.Sink
