import JavaOutline.Proofs.Doc.Written

/-! # Declarations as blocks of lines

A field, a method and a type are written as whole lines, each some steps deeper than where the
declaration starts (`Sink.Lays`).  So what is written at any depth is the block of the declaration
on its own, with the indentation of that depth in front of each line that is not empty, and the
block of a type is put together from the blocks of its members
(`TypeDecl.write_is_indented_block`). -/

namespace JavaOutline

open Text Sink

namespace Sink

/-! ## Indented blocks -/

/-- A text with some indentation in front of each line that is not empty. -/
def indentBlock (pre text : String) : String :=
  String.ofList (unlines ((lines text.toList).map (indented pre.toList)))

theorem indented_indented (p q l : List Char) :
    indented p (indented q l) = indented (p ++ q) l := by
  cases l with
  | nil => rfl
  | cons c l =>
    rw [indented_cons, indented_cons, indented]
    split
    next h => exact absurd h (by simp)
    next => rw [List.append_assoc]

theorem repeated_add (m n : Nat) (u : String) :
    repeated (m + n) u = repeated m u ++ repeated n u := by
  rw [repeated, List.replicate_add, String.join_append, repeated, repeated]

theorem unlines_concat_nil (ls : List (List Char)) : unlines (ls ++ [[]]) = terminated ls := by
  induction ls with
  | nil => rfl
  | cons l ls ih =>
    obtain ⟨m, ms, hm⟩ := List.exists_cons_of_ne_nil (List.append_ne_nil_of_right_ne_nil ls
      (List.cons_ne_nil ([] : List Char) []))
    rw [List.cons_append, hm, unlines, joinWith, ← unlines, ← hm, ih, terminated_cons,
      List.append_assoc, List.singleton_append]

/-- Whole lines are indented one by one. -/
theorem indentBlock_terminated (pre : String) {ls : List (List Char)} (hls : ∀ l ∈ ls, '\n' ∉ l) :
    indentBlock pre (String.ofList (terminated ls)) =
      String.ofList (terminated (ls.map (indented pre.toList))) := by
  have hlines : lines (terminated ls) = ls ++ [[]] := by
    have h := lines_terminated_append hls []
    rwa [List.append_nil, lines_nil] at h
  rw [indentBlock, String.toList_ofList, hlines, List.map_append, List.map_singleton, indented_nil,
    unlines_concat_nil]

/-! ## Writers of whole lines -/

/-- A line, given with the number of steps that it is deeper, behind its indentation. -/
def atDepth (unit : String) (depth : Nat) (l : Nat × List Char) : List Char :=
  indented (repeated (depth + l.1) unit).toList l.2

/-- From the start of a line the writer writes these lines and ends them. -/
structure Lays (w : Sink → Sink) (ls : List (Nat × List Char)) : Prop where
  notMem : ∀ l ∈ ls, '\n' ∉ l.2
  write : ∀ s : Sink, s.atLineStart = true → s.lineEnd = "\n" →
    w s = { s with
      text := s.text ++ String.ofList (terminated (ls.map (atDepth s.unit s.depth))) }

namespace Lays

variable {w w' : Sink → Sink} {ls ls' : List (Nat × List Char)} {s : Sink}

theorem nothing : Lays (fun s ↦ s) [] := by
  refine ⟨nofun, fun s _ _ ↦ ?_⟩
  rw [List.map_nil, terminated_nil, String.ofList_nil, String.append_empty]

theorem newline : Lays Sink.newline [(0, [])] := by
  refine ⟨by simp, fun s hs he ↦ ?_⟩
  rw [Sink.newline, he, List.map_singleton, atDepth, indented_nil, hs]
  rfl

theorem comp (h : Lays w ls) (h' : Lays w' ls') : Lays (fun s ↦ w' (w s)) (ls ++ ls') := by
  refine ⟨fun l hl ↦ ?_, fun s hs he ↦ ?_⟩
  · rcases List.mem_append.1 hl with hl | hl
    · exact h.notMem l hl
    · exact h'.notMem l hl
  · have hnext := h'.write { s with
      text := s.text ++ String.ofList (terminated (ls.map (atDepth s.unit s.depth))) } hs he
    rw [h.write s hs he, hnext, List.map_append, terminated_append, String.ofList_append,
      String.append_assoc]

/-- One step deeper, all lines are one step deeper. -/
theorem nested (h : Lays w ls) :
    Lays (fun s ↦ (w s.indent).deindent) (ls.map fun l ↦ (l.1 + 1, l.2)) := by
  refine ⟨fun l hl ↦ ?_, fun s hs he ↦ ?_⟩
  · obtain ⟨m, hm, rfl⟩ := List.mem_map.1 hl
    exact h.notMem m hm
  · have hlines : (ls.map fun l ↦ (l.1 + 1, l.2)).map (atDepth s.unit s.depth) =
        ls.map (atDepth s.unit (s.depth + 1)) := by
      rw [List.map_map]
      refine List.map_congr_left fun l _ ↦ ?_
      rw [Function.comp_apply, atDepth, atDepth, Nat.add_assoc, Nat.add_comm 1]
    rw [hlines, h.write s.indent hs he]
    rfl

theorem writeLine (t : String) : Lays (·.writeLine t) ((lines t.toList).map (0, ·)) := by
  refine ⟨fun l hl ↦ ?_, fun s hs he ↦ ?_⟩
  · obtain ⟨m, hm, rfl⟩ := List.mem_map.1 hl
    exact notMem_of_mem_lines hm
  · have hlines : ((lines t.toList).map (0, ·)).map (atDepth s.unit s.depth) =
        (lines t.toList).map (indented s.margin) := by
      rw [List.map_map]
      rfl
    have htext : t ++ "\n" = String.ofList (terminated (lines t.toList)) := by
      rw [terminated_lines, String.ofList_append, String.ofList_toList]
    rw [hlines, writeLine_eq_write, htext,
      write_terminated hs he fun l hl ↦ notMem_of_mem_lines hl]

/-- What is written does not depend on what was written before. -/
theorem text_eq (h : Lays w ls) (hs : s.atLineStart = true) (he : s.lineEnd = "\n") :
    (w s).text = s.text ++ (w { unit := s.unit, depth := s.depth }).text := by
  rw [h.write s hs he, h.write _ rfl rfl, String.empty_append]

/-- What is written at some depth is what is written at depth zero, indented. -/
theorem write_eq (h : Lays w ls) (hs : s.atLineStart = true) (he : s.lineEnd = "\n")
    (hu : '\n' ∉ s.unit.toList) :
    w s = { s with
      text := s.text ++ indentBlock (repeated s.depth s.unit) (w { unit := s.unit }).text } := by
  have hfresh : (w { unit := s.unit }).text =
      String.ofList (terminated (ls.map (atDepth s.unit 0))) := by
    rw [h.write _ rfl rfl, String.empty_append]
  have hls : ∀ l ∈ ls.map (atDepth s.unit 0), '\n' ∉ l := by
    intro l hl
    obtain ⟨m, hm, rfl⟩ := List.mem_map.1 hl
    exact notMem_indented (fun hc ↦ hu (mem_repeated hc)) (h.notMem m hm)
  have hlines : (ls.map (atDepth s.unit 0)).map (indented (repeated s.depth s.unit).toList) =
      ls.map (atDepth s.unit s.depth) := by
    rw [List.map_map]
    refine List.map_congr_left fun l _ ↦ ?_
    rw [Function.comp_apply, atDepth, indented_indented, ← String.toList_append, ← repeated_add,
      Nat.zero_add, atDepth]
  rw [hfresh, indentBlock_terminated _ hls, hlines, h.write s hs he]

end Lays

/-! ## Sinks at depth zero -/

/-- At depth zero a text is appended as it is. -/
theorem text_write_of_depth_zero {s : Sink} (hd : s.depth = 0) (he : s.lineEnd = "\n")
    (t : String) : (s.write t).text = s.text ++ t := by
  have hlead {s : Sink} (hd : s.depth = 0) : s.lead = [] := by
    rw [lead, margin, hd]
    split <;> rfl
  apply String.toList_inj.1
  rw [← String.ofList_toList (s := t), String.toList_append, String.toList_ofList]
  induction t.toList generalizing s with
  | nil => exact (List.append_nil _).symm
  | cons c l ih =>
    by_cases hc : c = '\n'
    · rw [hc, write_newline_cons, ih (s := s.newline) hd he, toList_text_newline, he,
        List.append_assoc]
      rfl
    · have hpiece : (s.piece [c]).text.toList = s.text.toList ++ [c] := by
        rw [piece_eq, hlead hd, nil_indented, String.toList_append, String.toList_ofList]
      have hd' : (s.piece [c]).depth = 0 := by rw [piece_eq, hd]
      have he' : (s.piece [c]).lineEnd = "\n" := by rw [piece_eq, he]
      rw [write_cons hc, ih hd' he', hpiece, List.append_assoc, List.singleton_append]

/-- A fresh sink holds what has been written into it, and nothing else has changed. -/
theorem writeLine_fresh (unit t : String) :
    ({ unit } : Sink).writeLine t = { unit, text := t ++ "\n" } := by
  obtain ⟨text, atLineStart, h⟩ := ({ unit } : Sink).exists_write t
  have htext := text_write_of_depth_zero (s := { unit }) rfl rfl t
  rw [h, String.empty_append] at htext
  dsimp only at htext
  rw [writeLine, h, htext]
  rfl

end Sink

/-! ## Headers as text -/

/-- Each text followed by a space. -/
def wordsText (ws : List String) : String := String.join (ws.map (· ++ " "))

/-- What is made of a text, unless it is missing or empty. -/
def someText (t : Option String) (f : String → String) : String :=
  match t with
  | none => ""
  | some t => if t.isEmpty then "" else f t

theorem writeWords_eq_write (ws : List String) (s : Sink) :
    writeWords ws s = s.write (wordsText ws) := by
  induction ws generalizing s with
  | nil => rfl
  | cons w ws ih =>
    have hwords : writeWords (w :: ws) s = writeWords ws ((s.write w).write " ") := rfl
    rw [hwords, ih, wordsText, wordsText, List.map_cons, String.join_cons, write_append,
      write_append]

theorem writeSome_eq_write {f : String → Sink → Sink} {g : String → String}
    (h : ∀ t s, f t s = s.write (g t)) (t : Option String) (s : Sink) :
    writeSome t f s = s.write (someText t g) := by
  cases t with
  | none => rfl
  | some t =>
    rw [writeSome, someText]
    split
    · rfl
    · exact h t s

theorem writeDoc_eq_write_docBlock (h : Header) (unit : String) (s : Sink) :
    h.writeDoc s = s.write (h.docBlock unit) := by
  rw [Header.docBlock, h.writeDoc_eq_write, h.writeDoc_eq_write,
    text_write_of_depth_zero rfl rfl, String.empty_append]

/-- A parameter inside a parameter list. -/
def Parameter.text (p : Parameter) : String :=
  wordsText p.modifiers ++ p.type ++ (if p.varargs then "..." else "") ++ " " ++ p.name

theorem Parameter.write_eq_write (p : Parameter) (s : Sink) : p.write s = s.write p.text := by
  rw [Parameter.write, Parameter.text, Header.writeModifiers, writeWords_eq_write]
  simp only [write_append]
  split <;> rfl

/-- A field without its documentation. -/
def Field.text (f : Field) : String :=
  wordsText f.modifiers ++ f.type ++ " " ++ f.name ++ someText f.initializer (" = " ++ ·) ++ ";"

theorem Field.write_eq_writeLine (f : Field) (unit : String) (s : Sink) :
    f.write s = s.writeLine (f.docBlock unit ++ f.text) := by
  have hinitializer (i : String) (s : Sink) : (s.write " = ").write i = s.write (" = " ++ i) :=
    (s.write_append " = " i).symm
  rw [Field.write, Field.text, Header.writeModifiers, writeWords_eq_write,
    writeDoc_eq_write_docBlock _ unit, writeSome_eq_write hinitializer]
  simp only [writeLine, write_append]

namespace Method

/-- A method's header. -/
def headText (m : Method) : String :=
  wordsText (m.modifiers.filter isAccessModifier) ++
    wordsText (m.modifiers.filter fun w ↦ !isAccessModifier w) ++
    someText m.typeParameters (· ++ " ") ++
    (if m.constructor then "" else someText m.returnType (· ++ " ")) ++
    m.name ++ "(" ++ ", ".intercalate (m.parameters.map Parameter.text) ++ ")" ++
    (if m.exceptions.isEmpty then "" else " throws " ++ ", ".intercalate m.exceptions)

theorem writeParameters_eq_write (ps : List Parameter) (s : Sink) :
    writeParameters ps s = s.write (", ".intercalate (ps.map Parameter.text)) := by
  induction ps generalizing s with
  | nil => rfl
  | cons p ps ih =>
    cases ps with
    | nil =>
      rw [writeParameters, p.write_eq_write, List.map_singleton, String.intercalate_singleton]
    | cons q ps =>
      rw [writeParameters, ih, p.write_eq_write]
      simp only [List.map_cons, String.intercalate_cons_cons, write_append]

theorem writeDeclaration_eq_write (m : Method) (s : Sink) :
    m.writeDeclaration s = s.write m.headText := by
  have hword (t : String) (s : Sink) : (s.write t).write " " = s.write (t ++ " ") :=
    (s.write_append t " ").symm
  rw [writeDeclaration, headText, Header.writeAccessModifiers, Header.writeOtherModifiers,
    writeWords_eq_write, writeWords_eq_write, writeSome_eq_write hword, writeParameters_eq_write]
  simp only [writeSome_eq_write hword, write_append]
  split <;> split <;> simp only [write_append, write_empty]

end Method

namespace TypeDecl

/-- A type's header, up to the opening brace. -/
def headText (t : TypeDecl) : String :=
  wordsText t.modifiers ++ t.keyword ++ " " ++ t.name ++ someText t.typeParameters id ++
    someText t.superclass (" extends " ++ ·) ++
    (if t.interfaces.isEmpty then ""
      else (if t.isInterface then " extends " else " implements ") ++
        ", ".intercalate t.interfaces)

theorem writeHead_eq_writeLine (t : TypeDecl) (unit : String) (s : Sink) :
    t.writeHead s = s.writeLine (t.docBlock unit ++ t.headText ++ " \x7b") := by
  have hparameters (p : String) (s : Sink) : s.write p = s.write (id p) := rfl
  have hextends (p : String) (s : Sink) :
      (s.write " extends ").write p = s.write (" extends " ++ p) :=
    (s.write_append " extends " p).symm
  rw [writeHead, headText, Header.writeModifiers, writeWords_eq_write,
    writeDoc_eq_write_docBlock _ unit, writeSome_eq_write hparameters, writeSome_eq_write hextends]
  simp only [writeLine, write_append]
  split <;> simp only [write_append, write_empty]

end TypeDecl

/-! ## The lines of declarations -/

theorem Field.exists_lays (f : Field) : ∃ ls, Lays f.write ls := by
  have hwrite : f.write = (·.writeLine (f.docBlock "" ++ f.text)) :=
    funext (f.write_eq_writeLine "")
  rw [hwrite]
  exact ⟨_, .writeLine _⟩

namespace Method

theorem write_eq (m : Method) (unit : String) (s : Sink) :
    m.write s = writeBody m.body (s.write (m.docBlock unit ++ m.headText)) := by
  rw [write, m.writeDeclaration_eq_write, writeDoc_eq_write_docBlock _ unit, write_append]

/-- A body is written in lines of its own, behind what stands on the line already. -/
theorem exists_lays_writeBody (body : Option String) (head : String) :
    ∃ ls, Lays (fun s ↦ writeBody body (s.write head)) ls := by
  cases body with
  | none =>
    have hwrite : (fun s : Sink ↦ writeBody none (s.write head)) =
        fun s : Sink ↦ s.writeLine (head ++ ";") := by
      funext s
      rw [writeBody, write_writeLine]
    rw [hwrite]
    exact ⟨_, .writeLine _⟩
  | some b =>
    have hclose := Lays.writeLine "\x7d"
    have hopen := Lays.writeLine (head ++ " \x7b")
    by_cases hb : b.isEmpty
    · have hwrite : (fun s : Sink ↦ writeBody (some b) (s.write head)) =
          fun s : Sink ↦ (s.writeLine (head ++ " \x7b")).writeLine "\x7d" := by
        funext s
        simp only [writeBody, if_pos hb, write_writeLine]
      rw [hwrite]
      exact ⟨_, hopen.comp hclose⟩
    · have hwrite : (fun s : Sink ↦ writeBody (some b) (s.write head)) =
          fun s : Sink ↦ (((s.writeLine (head ++ " \x7b")).indent.writeLine b).deindent).writeLine
            "\x7d" := by
        funext s
        simp only [writeBody, if_neg hb, write_writeLine]
      rw [hwrite]
      exact ⟨_, (hopen.comp (Lays.writeLine b).nested).comp hclose⟩

theorem exists_lays (m : Method) : ∃ ls, Lays m.write ls := by
  have hwrite : m.write = fun s ↦ writeBody m.body (s.write (m.docBlock "" ++ m.headText)) :=
    funext (m.write_eq "")
  rw [hwrite]
  exact exists_lays_writeBody m.body _

end Method

namespace TypeDecl

theorem exists_lays_writeParts {ps : List (Sink → Sink)} (h : ∀ p ∈ ps, ∃ ls, Lays p ls) :
    ∃ ls, Lays (writeParts ps) ls := by
  induction ps with
  | nil => exact ⟨_, .nothing⟩
  | cons p ps ih =>
    obtain ⟨⟨ls, hp⟩, hps⟩ := List.forall_mem_cons.1 h
    cases ps with
    | nil => exact ⟨ls, hp⟩
    | cons q ps =>
      obtain ⟨ls', hrest⟩ := ih hps
      exact ⟨_, (hp.comp .newline).comp hrest⟩

theorem writeConstants_eq_writeLine (cs : List String) (s : Sink) :
    writeConstants cs s = s.writeLine (", ".intercalate cs ++ ";") := by
  rw [writeConstants, write_writeLine]

theorem exists_lays_of_mem_parts (t : TypeDecl) : ∀ p ∈ t.parts, ∃ ls, Lays p ls := by
  intro p hp
  rw [parts, List.mem_append, List.mem_append] at hp
  rcases hp with (hp | hp) | hp
  · split at hp
    · cases hp
    · rw [List.mem_singleton.1 hp]
      rw [funext (writeConstants_eq_writeLine t.constants)]
      exact ⟨_, .writeLine _⟩
  · obtain ⟨f, -, rfl⟩ := List.mem_map.1 hp
    exact f.exists_lays
  · obtain ⟨m, -, rfl⟩ := List.mem_map.1 hp
    exact m.exists_lays

theorem exists_lays (t : TypeDecl) : ∃ ls, Lays t.write ls := by
  obtain ⟨ls, hparts⟩ := exists_lays_writeParts t.exists_lays_of_mem_parts
  have hhead : t.writeHead = (·.writeLine (t.docBlock "" ++ t.headText ++ " \x7b")) :=
    funext (t.writeHead_eq_writeLine "")
  have hopen : Lays t.writeHead _ := hhead ▸ Lays.writeLine _
  exact ⟨_, (hopen.comp hparts.nested).comp (.writeLine "\x7d")⟩

/-- Parts on their own, with an empty line between them. -/
theorem text_writeParts (unit : String) (depth : Nat) {ps : List (Sink → Sink)}
    (h : ∀ p ∈ ps, ∃ ls, Lays p ls) :
    (writeParts ps { unit, depth }).text =
      "\n".intercalate (ps.map fun p ↦ (p { unit, depth }).text) := by
  induction ps with
  | nil => rfl
  | cons p ps ih =>
    obtain ⟨⟨ls, hp⟩, hps⟩ := List.forall_mem_cons.1 h
    cases ps with
    | nil => rw [List.map_singleton, String.intercalate_singleton, writeParts]
    | cons q ps =>
      obtain ⟨ls', hrest⟩ := exists_lays_writeParts hps
      have hfirst : (p { unit, depth }).newline =
          { unit, depth, text := (p { unit, depth }).text ++ "\n" } := by
        rw [hp.write _ rfl rfl]
        rfl
      rw [writeParts, hfirst, hrest.text_eq rfl rfl, ih hps]
      simp only [List.map_cons, String.intercalate_cons_cons]

/-- The blocks of a type's body: the constants on a line of their own, if there are any, the fields,
the methods. -/
def bodyBlocks (t : TypeDecl) (unit : String) : List String :=
  (if t.constants.isEmpty then [] else [", ".intercalate t.constants ++ ";\n"]) ++
    t.fields.map (·.block unit) ++ t.methods.map (·.block unit)

theorem texts_parts (t : TypeDecl) (unit : String) :
    t.parts.map (fun p ↦ (p { unit }).text) = t.bodyBlocks unit := by
  have hconstants : (writeConstants t.constants { unit }).text =
      ", ".intercalate t.constants ++ ";\n" := by
    rw [writeConstants_eq_writeLine, writeLine_fresh, String.append_assoc]
    rfl
  rw [parts, bodyBlocks, List.map_append, List.map_append, List.map_map, List.map_map]
  split
  · rfl
  · rw [List.map_singleton, hconstants]
    rfl

/-- The block of a type: documentation, header, the parts of the body one step deeper, closing
brace. -/
theorem block_eq_writeParts (t : TypeDecl) (unit : String) :
    t.block unit = t.docBlock unit ++ t.headText ++ " \x7b\n" ++
      (writeParts t.parts { unit, depth := 1 }).text ++ "\x7d\n" := by
  obtain ⟨ls, hparts⟩ := exists_lays_writeParts t.exists_lays_of_mem_parts
  have hhead : (t.writeHead { unit }).indent =
      { unit, depth := 1, text := t.docBlock unit ++ t.headText ++ " \x7b\n" } := by
    rw [t.writeHead_eq_writeLine unit, writeLine_fresh, indent, String.append_assoc]
    rfl
  rw [block, write, hhead, hparts.write _ rfl rfl, writeLine_eq_write,
    text_write_of_depth_zero rfl rfl, hparts.write _ rfl rfl, String.empty_append]
  rfl

/-- The block of a type: documentation, header, the blocks of the body one step deeper with an empty
line between them, closing brace. -/
theorem block_eq (t : TypeDecl) {unit : String} (hu : '\n' ∉ unit.toList) :
    t.block unit = t.docBlock unit ++ t.headText ++ " \x7b\n" ++
      indentBlock unit ("\n".intercalate (t.bodyBlocks unit)) ++ "\x7d\n" := by
  obtain ⟨ls, hparts⟩ := exists_lays_writeParts t.exists_lays_of_mem_parts
  have hunit : repeated 1 unit = unit := by
    rw [repeated, List.replicate_one, String.join_cons, String.join_nil, String.append_empty]
  have hbody : (writeParts t.parts { unit, depth := 1 }).text =
      indentBlock unit ("\n".intercalate (t.bodyBlocks unit)) := by
    rw [hparts.write_eq rfl rfl hu, text_writeParts unit 0 t.exists_lays_of_mem_parts, texts_parts,
      hunit, String.empty_append]
  rw [block_eq_writeParts, hbody]

/-- A type's block is its documentation, its header and the opening brace, the blocks of its
constants, fields and methods one step deeper with an empty line between them, and the closing
brace; and what a field, method or type writes at the start of a line at any depth is its block,
indented by that depth, and nothing else in the sink has changed. -/
theorem write_is_indented_block {unit : String} (hu : '\n' ∉ unit.toList) :
    (∀ t : TypeDecl, t.block unit = t.docBlock unit ++ t.headText ++ " \x7b\n" ++
      indentBlock unit ("\n".intercalate (t.bodyBlocks unit)) ++ "\x7d\n") ∧
    ∀ s : Sink, s.unit = unit → s.lineEnd = "\n" → s.atLineStart = true →
      (∀ f : Field, f.write s =
        { s with text := s.text ++ indentBlock (repeated s.depth unit) (f.block unit) }) ∧
      (∀ m : Method, m.write s =
        { s with text := s.text ++ indentBlock (repeated s.depth unit) (m.block unit) }) ∧
      ∀ t : TypeDecl, t.write s =
        { s with text := s.text ++ indentBlock (repeated s.depth unit) (t.block unit) } := by
  refine ⟨fun t ↦ t.block_eq hu, ?_⟩
  rintro s rfl he hs
  refine ⟨fun f ↦ ?_, fun m ↦ ?_, fun t ↦ ?_⟩
  · obtain ⟨ls, h⟩ := f.exists_lays
    exact h.write_eq hs he hu
  · obtain ⟨ls, h⟩ := m.exists_lays
    exact h.write_eq hs he hu
  · obtain ⟨ls, h⟩ := t.exists_lays
    exact h.write_eq hs he hu

/-- Texts with empty lines in them: a comment, an initializer and a body, two steps deep. -/
theorem write_is_indented_block_nested : ∃ (t : TypeDecl) (s : Sink),
    t = { name := "A", comment := some "a\n\nb"
          fields := [{ name := "x", type := "int[]", initializer := some "\x7b1,\n\n2\x7d" }]
          methods := [
            { name := "m", returnType := some "void", body := some "y();\n\n  z();" }] } ∧
    s = { unit := "  ", depth := 2, text := "before\n" } ∧
    t.bodyBlocks "  " =
      ["int[] x = \x7b1,\n\n2\x7d;\n", "void m() \x7b\n  y();\n\n    z();\n\x7d\n"] ∧
    t.block "  " = "/**\n * a\n * \n * b\n */\nclass A \x7b\n" ++
      indentBlock "  " ("\n".intercalate (t.bodyBlocks "  ")) ++ "\x7d\n" ∧
    t.write s = { s with text := "before\n" ++ indentBlock "    " (t.block "  ") } := by
  refine ⟨_, _, rfl, rfl, by decide +kernel, ?_⟩
  generalize ht : TypeDecl.mk _ _ _ _ = t
  have hu : '\n' ∉ "  ".toList := by decide
  obtain ⟨hblock, hwrite⟩ := write_is_indented_block hu
  have hhead : t.docBlock "  " ++ t.headText ++ " \x7b\n" =
      "/**\n * a\n * \n * b\n */\nclass A \x7b\n" := by
    rw [← ht]
    decide +kernel
  refine ⟨?_, (hwrite _ rfl rfl rfl).2.2 t⟩
  rw [← hhead]
  exact hblock t

end TypeDecl

end JavaOutline
