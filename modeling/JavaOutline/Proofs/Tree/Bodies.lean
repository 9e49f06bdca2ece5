import JavaOutline.Proofs.Decl.Blocks
import JavaOutline.Proofs.Layout.Dedent
import JavaOutline.Tree.Outline

/-! # Method bodies

The body of a method has the ink of the text between the braces, in lines that have lost the
indentation they had in common (`SyntaxTree.isBodyOf_bodyText`).  Writing it puts each line one step
deeper than the braces, and the braces with what is written between them are read as the same body
again (`SyntaxTree.body?_survives_writing`). -/

namespace JavaOutline

open Text Sink

/-! ## Reading -/

/-- What a body is of the text between its braces: the lines from the first to the last that has
ink, without blanks at their ends and without the indentation that those with ink share. -/
structure IsBodyOf (inside body : List Char) : Prop where
  ink : ink body = ink inside
  isInked : IsInked (textLines body)
  endsBlank : ∀ l ∈ textLines body, endsBlank l = false
  outdented : ∃ margin before kept after, IsIndent margin ∧
    before ++ kept ++ after = lines inside ∧ (∀ l ∈ before ++ after, Text.ink l = []) ∧
    (∀ l ∈ kept, Text.ink l = [] ∨ margin <+: l) ∧
    textLines body = kept.map fun l ↦ (trimEnd l).drop margin.length
  isDedented : IsDedented (textLines body)

namespace SyntaxTree

variable {b inside : List Char}

theorem bodyText_eq (h : trim b = '\x7b' :: inside ++ ['\x7d']) :
    bodyText b = unlines (outdented (trimBlankLines (lines inside))) := by
  have hinside : ((trim b).drop 1).dropLast = inside := by
    rw [h, List.cons_append, List.drop_one, List.tail_cons, List.dropLast_concat]
  rw [bodyText, hinside]
  rfl

theorem textLines_bodyText (h : trim b = '\x7b' :: inside ++ ['\x7d']) :
    textLines (bodyText b) = outdented (trimBlankLines (lines inside)) := by
  have hinked := isInked_outdented (isInked_trimBlankLines (lines inside))
  obtain ⟨before, after, hlines, -⟩ := exists_append_eq_trimBlankLines (lines inside)
  rw [bodyText_eq h]
  apply textLines_unlines
  · intro d hd
    rw [outdented_eq] at hd
    obtain ⟨l, hl, rfl⟩ := List.mem_map.1 hd
    have hl : l ∈ lines inside := by
      rw [← hlines]
      exact List.mem_append_left _ (List.mem_append_right _ hl)
    exact fun hc ↦ notMem_of_mem_lines hl (mem_of_mem_trimEnd (List.mem_of_mem_drop hc))
  · intro hnil
    rw [hnil] at hinked
    exact hinked.1 [] rfl rfl

theorem isBodyOf_bodyText (h : trim b = '\x7b' :: inside ++ ['\x7d']) :
    IsBodyOf inside (bodyText b) := by
  obtain ⟨before, after, hlines, hblank⟩ := exists_append_eq_trimBlankLines (lines inside)
  have htext := textLines_bodyText h
  have hprefix : ∀ l ∈ trimBlankLines (lines inside),
      ink l = [] ∨ sharedIndent (trimBlankLines (lines inside)) <+: l :=
    fun l hl ↦ or_iff_not_imp_left.2 (sharedIndent_isPrefix hl)
  constructor
  case ink =>
    rw [bodyText_eq h, ink_unlines, flatMap_ink_outdented, flatMap_ink_trimBlankLines,
      ← ink_unlines, unlines_lines]
  case isInked =>
    rw [htext]
    exact isInked_outdented (isInked_trimBlankLines _)
  case endsBlank =>
    rw [htext]
    exact fun l hl ↦ endsBlank_of_mem_outdented hl
  case outdented =>
    exact ⟨_, before, _, after, isIndent_commonIndent _, hlines, hblank, hprefix,
      htext.trans (outdented_eq _)⟩
  case isDedented =>
    rw [htext]
    exact isDedented_outdented _

end SyntaxTree

/-! ## Writing -/

/-- The lines of a body one step deeper than the braces. -/
def nestedLines (unit : String) (depth : Nat) (body : List Char) : List (List Char) :=
  (textLines body).map (indented (repeated (depth + 1) unit).toList)

/-- A body between braces that stand at some depth. -/
def braced (unit : String) (depth : Nat) (body : List Char) : List Char :=
  '\x7b' :: ('\n' :: (terminated (nestedLines unit depth body) ++ (repeated depth unit).toList)) ++
    ['\x7d']

theorem isIndent_repeated {unit : String} (h : IsIndent unit.toList) (n : Nat) :
    IsIndent (repeated n unit).toList := fun c hc ↦ h c (mem_repeated hc)

theorem lines_nestedLines {unit : String} (hu : IsIndent unit.toList) (depth : Nat)
    (body : List Char) :
    lines ('\n' :: (terminated (nestedLines unit depth body) ++ (repeated depth unit).toList)) =
      [[]] ++ nestedLines unit depth body ++ [(repeated depth unit).toList] := by
  have hnested : ∀ l ∈ nestedLines unit depth body, '\n' ∉ l := by
    intro l hl
    obtain ⟨m, hm, rfl⟩ := List.mem_map.1 hl
    exact notMem_indented (isIndent_repeated hu (depth + 1)).notMem (notMem_of_mem_textLines hm)
  rw [lines_cons_newline, lines_terminated_append hnested,
    lines_of_notMem (isIndent_repeated hu depth).notMem]
  rfl

/-- What is written for a body is read as that body. -/
theorem bodyText_braced {unit : String} (hu : IsIndent unit.toList) {inside body : List Char}
    (h : IsBodyOf inside body) (depth : Nat) :
    SyntaxTree.bodyText (braced unit depth body) = body := by
  have hindent := isIndent_repeated hu (depth + 1)
  have hends : trim (braced unit depth body) = braced unit depth body :=
    trim_eq_self rfl (endsBlank_concat _ '\x7d')
  have hinked : IsInked (nestedLines unit depth body) :=
    h.isInked.map fun l _ ↦ ink_indented hindent l
  -- Dropped are what follows the opening brace on its line and what leads to the closing one.
  have hopen : ∀ l ∈ [([] : List Char)], ink l = [] := by
    intro l hl
    rw [List.mem_singleton.1 hl]
    rfl
  have hclose : ∀ l ∈ [(repeated depth unit).toList], ink l = [] := by
    intro l hl
    rw [List.mem_singleton.1 hl]
    exact (isIndent_repeated hu depth).ink
  rw [SyntaxTree.bodyText_eq hends, lines_nestedLines hu, trimBlankLines_append hopen hinked hclose,
    nestedLines, outdented_indented hindent h.isDedented h.endsBlank, unlines_textLines]

namespace Method

/-- What is written up to the brace that opens the body. -/
def beforeBody (m : Method) (s : Sink) : Sink := (m.writeDeclaration (m.writeDoc s)).write " "

theorem writeBody_nested (body : String) {s : Sink} (hs : s.atLineStart = true)
    (he : s.lineEnd = "\n") :
    (if body.isEmpty then s else (s.indent.writeLine body).deindent) =
      { s with text := s.text ++
        String.ofList (terminated (nestedLines s.unit s.depth body.toList)) } := by
  by_cases hb : body.isEmpty
  · rw [if_pos hb, nestedLines, textLines, if_pos (by simpa using hb)]
    simp
  · have hlays := (Lays.writeLine body).nested.write s hs he
    rw [if_neg hb, hlays, nestedLines, textLines, if_neg (by simpa using hb)]
    simp only [List.map_map]
    rfl

theorem writeLine_brace (s : Sink) (he : s.lineEnd = "\n") :
    s.writeLine " \x7b" =
      { s with text := (s.write " ").text ++ "\x7b\n", atLineStart := true } := by
  have hspace : s.write " " = s.piece [' '] := rfl
  have hbrace (s : Sink) : s.writeLine "\x7b" = (s.piece ['\x7b']).newline := rfl
  have hwords : " \x7b" = " " ++ "\x7b" := rfl
  rw [hwords, ← write_writeLine, hspace, hbrace, piece_eq, lead_piece_cons, newline, piece_eq, he]
  simp [String.append_assoc]

theorem text_writeBody (body : String) {s : Sink} (he : s.lineEnd = "\n") :
    (writeBody (some body) s).text = (s.write " ").text ++
      String.ofList (braced s.unit s.depth body.toList) ++ "\n" := by
  have hclose {t : Sink} (ht : t.atLineStart = true) (he : t.lineEnd = "\n") :
      (t.writeLine "\x7d").text = t.text ++ repeated t.depth t.unit ++ "\x7d\n" := by
    rw [(Lays.writeLine "\x7d").write t ht he]
    apply String.toList_inj.1
    simp [lines, splitAt, atDepth]
  have hnested {t : Sink} (ht : t.atLineStart = true) (he : t.lineEnd = "\n") :
      ((if body.isEmpty then t else (t.indent.writeLine body).deindent).writeLine "\x7d").text =
        t.text ++ String.ofList (terminated (nestedLines t.unit t.depth body.toList)) ++
          repeated t.depth t.unit ++ "\x7d\n" := by
    rw [writeBody_nested body ht he]
    exact hclose ht he
  rw [writeBody, writeLine_brace s he]
  refine (hnested (t := { s with text := _, atLineStart := true }) rfl he).trans ?_
  apply String.toList_inj.1
  rw [braced]
  simp

theorem text_write (m : Method) {s : Sink} {body : String} (hm : m.body = some body)
    (he : s.lineEnd = "\n") : (m.write s).text = (m.beforeBody s).text ++
      String.ofList (braced s.unit s.depth body.toList) ++ "\n" := by
  have hhead : m.writeDeclaration (m.writeDoc s) = s.write (m.docBlock s.unit ++ m.headText) := by
    rw [m.writeDeclaration_eq_write, writeDoc_eq_write_docBlock _ s.unit, write_append]
  have hend : (s.write (m.docBlock s.unit ++ m.headText)).lineEnd = "\n" := by
    rw [lineEnd_write, he]
  rw [write, hm, beforeBody, hhead, text_writeBody body hend, unit_write, depth_write]

end Method

namespace SyntaxTree

theorem body?_eq {src b : List Char} {t n : SyntaxTree} (hn : t.fieldChild? "body" = some n)
    (hb : n.text src = .ok b) : t.body? src = .ok (some (String.ofList (bodyText b))) := by
  rw [body?, hn]
  dsimp only
  rw [hb]
  rfl

/-- A body has the ink of the text between the braces, in lines of which the first and the last have
ink, and which have lost the blanks at their ends and the indentation they shared.  Whatever the
depth and the indentation, what a method with that body writes from the brace that opens it is a
block that ends with the closing brace, and is read as the same body from every node whose text it
is. -/
theorem body?_survives_writing {src b inside : List Char} {t n : SyntaxTree}
    (hn : t.fieldChild? "body" = some n) (hb : n.text src = .ok b)
    (h : trim b = '\x7b' :: inside ++ ['\x7d']) :
    ∃ body : String, t.body? src = .ok (some body) ∧ IsBodyOf inside body.toList ∧
      ∀ (m : Method) (s : Sink), m.body = some body → s.lineEnd = "\n" → IsIndent s.unit.toList →
        ∃ block : List Char,
          (m.write s).text = (m.beforeBody s).text ++ String.ofList block ++ "\n" ∧
          block.head? = some '\x7b' ∧ block.getLast? = some '\x7d' ∧
          ∀ (src' : List Char) (t' n' : SyntaxTree), t'.fieldChild? "body" = some n' →
            n'.text src' = .ok block → t'.body? src' = .ok (some body) := by
  have hbody : IsBodyOf inside (String.ofList (bodyText b)).toList := by
    rw [String.toList_ofList]
    exact isBodyOf_bodyText h
  refine ⟨_, body?_eq hn hb, hbody, fun m s hm he hu ↦ ?_⟩
  refine ⟨_, m.text_write hm he, rfl, List.getLast?_concat, fun src' t' n' hn' hb' ↦ ?_⟩
  rw [body?_eq hn' hb', bodyText_braced hu hbody, String.ofList_toList]

/-- A body that is the whole text. -/
def wholeBody (length : Nat) : SyntaxTree :=
  .node { kind := "block", field := some "body", start := 0, stop := length, row := 0 } []

/-- A method whose body is the whole text. -/
def wholeMethod (length : Nat) : SyntaxTree :=
  .node { kind := "method_declaration", start := 0, stop := length, row := 0 } [wholeBody length]

/-- A body that is indented by tabs and spaces, with blanks at the end of a line and an empty line,
in a method one tab deep. -/
theorem body?_survives_writing_tabs : ∃ (m : Method) (s : Sink) (block : String),
    m = { name := "m", returnType := some "void", body := some "a();\n\n  b();" } ∧
    s = { unit := "\t", depth := 1 } ∧
    block = "\x7b\n\t\ta();\n\n\t\t  b();\n\t\x7d" ∧
    (wholeMethod 30).body? " \x7b  \n\t  a();\t\n\n\t    b(); \n \x7d".toList = .ok m.body ∧
    IsBodyOf "  \n\t  a();\t\n\n\t    b(); \n ".toList "a();\n\n  b();".toList ∧
    (m.write s).text = "\tvoid m() " ++ block ++ "\n" ∧
    (wholeMethod 21).body? block.toList = .ok m.body := by
  obtain ⟨m, hm⟩ : ∃ m : Method,
    m = { name := "m", returnType := some "void", body := some "a();\n\n  b();" } := ⟨_, rfl⟩
  obtain ⟨s, hs⟩ : ∃ s : Sink, s = { unit := "\t", depth := 1 } := ⟨_, rfl⟩
  refine ⟨m, s, _, hm, hs, rfl, ?_⟩
  have hbraces : trim " \x7b  \n\t  a();\t\n\n\t    b(); \n \x7d".toList =
      '\x7b' :: "  \n\t  a();\t\n\n\t    b(); \n ".toList ++ ['\x7d'] := by decide
  have htext : (wholeBody 30).text " \x7b  \n\t  a();\t\n\n\t    b(); \n \x7d".toList =
      .ok " \x7b  \n\t  a();\t\n\n\t    b(); \n \x7d".toList := rfl
  obtain ⟨body, hbody, hof, hwrite⟩ :=
    body?_survives_writing (t := wholeMethod 30) rfl htext hbraces
  have hread : (wholeMethod 30).body? " \x7b  \n\t  a();\t\n\n\t    b(); \n \x7d".toList =
      .ok (some "a();\n\n  b();") := by decide +kernel
  obtain rfl : "a();\n\n  b();" = body := Option.some.inj (Except.ok.inj (hread.symm.trans hbody))
  have hmbody : m.body = some "a();\n\n  b();" := by rw [hm]
  have hunit : IsIndent s.unit.toList := by
    rw [hs]
    intro c hc
    rw [List.mem_singleton.1 hc]
    rfl
  obtain ⟨block, htext, -, -, hagain⟩ := hwrite m s hmbody (by rw [hs]) hunit
  have hbefore : (m.beforeBody s).text = "\tvoid m() " := by
    rw [hm, hs]
    decide +kernel
  have hwhole : (m.write s).text =
      "\tvoid m() " ++ "\x7b\n\t\ta();\n\n\t\t  b();\n\t\x7d" ++ "\n" := by
    rw [hm, hs]
    decide +kernel
  rw [hwhole, hbefore, String.append_left_inj, String.append_right_inj] at htext
  obtain rfl : block = "\x7b\n\t\ta();\n\n\t\t  b();\n\t\x7d".toList := by
    rw [htext, String.toList_ofList]
  rw [hmbody]
  exact ⟨hread, hof, hwhole, hagain _ _ _ rfl rfl⟩

/-! ## Initializers and thrown types

Nothing else is cut to its margin when it is read, and comments stand among the types that a method
throws, so what is written of these is not read as what it was. -/

/-- A type with one field that has an initializer of two lines, the second one `n` bytes in. -/
def initializedType (n : Nat) : SyntaxTree :=
  .node { kind := "program", start := 0, stop := 31 + n, row := 0 } [
    .node { kind := "class_declaration", start := 0, stop := 30 + n, row := 0 } [
      .node { kind := "identifier", field := some "name", start := 6, stop := 7, row := 0 } [],
      .node { kind := "class_body", field := some "body", start := 8, stop := 30 + n, row := 0 } [
        .node { kind := "field_declaration", start := 14, stop := 28 + n, row := 1 } [
          .node { kind := "integral_type", field := some "type", start := 14, stop := 17,
                  row := 1 } [],
          .node { kind := "variable_declarator", field := some "declarator", start := 18,
                  stop := 27 + n, row := 1 } [
            .node { kind := "identifier", field := some "name", start := 18, stop := 19,
                    row := 1 } [],
            .node { kind := "binary_expression", field := some "value", start := 22,
                    stop := 27 + n, row := 1 } []]]]]]

/-- The second line of an initializer is indented with the field when it is written, and keeps the
indentation when that is read. -/
theorem outline_reemitted_ne : ∃ u u' : CompilationUnit,
    CompilationUnit.ofTree "class A \x7b\n    int x = 1 +\n2;\n\x7d\n" (initializedType 0) none =
      .ok u ∧
    u.block "    " = "class A \x7b\n    int x = 1 +\n    2;\n\x7d\n" ∧
    CompilationUnit.ofTree (u.block "    ") (initializedType 4) none = .ok u' ∧
    (u.types.flatMap (·.fields)).map (·.initializer) = [some "1 +\n2"] ∧
    (u'.types.flatMap (·.fields)).map (·.initializer) = [some "1 +\n    2"] := by
  refine ⟨_, _, rfl, ?_, rfl, ?_, ?_⟩ <;> decide +kernel

/-- A type with one method that throws a type behind a comment. -/
def throwingType : SyntaxTree :=
  .node { kind := "program", start := 0, stop := 50, row := 0 } [
    .node { kind := "class_declaration", start := 0, stop := 49, row := 0 } [
      .node { kind := "identifier", field := some "name", start := 6, stop := 7, row := 0 } [],
      .node { kind := "class_body", field := some "body", start := 8, stop := 49, row := 0 } [
        .node { kind := "method_declaration", start := 14, stop := 47, row := 1 } [
          .node { kind := "void_type", field := some "type", start := 14, stop := 18, row := 1 } [],
          .node { kind := "identifier", field := some "name", start := 19, stop := 20,
                  row := 1 } [],
          .node { kind := "formal_parameters", field := some "parameters", start := 20,
                  stop := 22, row := 1 } [],
          .node { kind := "throws", start := 23, stop := 39, row := 1 } [
            .node { kind := "throws", named := false, start := 23, stop := 29, row := 1 } [],
            .node { kind := "block_comment", start := 30, stop := 37, row := 1 } [],
            .node { kind := "type_identifier", start := 38, stop := 39, row := 1 } []],
          .node { kind := "block", field := some "body", start := 40, stop := 47, row := 1 } []]]]]

/-- The comment is one of the types that the method throws, and is written as one. -/
theorem outline_thrown_comment : ∃ u : CompilationUnit,
    CompilationUnit.ofTree
      "class A \x7b\n    void m() throws /* c */ E \x7b\n    \x7d\n\x7d\n" throwingType none =
      .ok u ∧
    (u.types.flatMap (·.methods)).map (·.exceptions) = [["/* c */", "E"]] ∧
    u.block "    " =
      "class A \x7b\n    void m() throws /* c */, E \x7b\n    \x7d\n\x7d\n" := by
  refine ⟨_, rfl, ?_, ?_⟩ <;> decide +kernel

end SyntaxTree

end JavaOutline
