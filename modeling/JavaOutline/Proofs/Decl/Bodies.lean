import JavaOutline.Proofs.Decl.Blocks
import JavaOutline.Proofs.Layout.LogicalLines
import JavaOutline.Proofs.Text.Ink
import Mathlib.Data.List.Forall2

/-! # Bodies of types

A body is read as a list of tokens: constants and members are opaque texts, and with them stand
commas, a semicolon and blanks (`Spells`).  What is written between the braces is always the
constants, ended by a semicolon if there are any, and the members behind them.  As that semicolon
hangs on the constants and not on the keyword, an enum's body is one in the grammar of members if
and only if it has a constant or no member, and a class or an interface has a body of members if and
only if it has no constant (`TypeDecl.block_has_body`). -/

namespace JavaOutline

open Text Sink TypeDecl

/-! ## Tokens of a body -/

/-- What stands in a body.  Nothing is known of the texts of constants and members. -/
inductive BodyToken where
  | constant (text : String)
  | member (text : String)
  | comma
  | semicolon
deriving DecidableEq, Repr

namespace BodyToken

def text : BodyToken → List Char
  | constant t => t.toList
  | member t => t.toList
  | comma => [',']
  | semicolon => [';']

/-- Constants with commas between them. -/
def constantList (cs : List String) : List BodyToken := (cs.map constant).intersperse comma

/-- The body of an enum: its constants, a semicolon, its members.  Without members the semicolon may
be missing. -/
inductive IsEnumBody (cs ms : List String) : List BodyToken → Prop
  | bare : ms = [] → IsEnumBody cs ms (constantList cs)
  | ended : IsEnumBody cs ms (constantList cs ++ semicolon :: ms.map member)

/-- The lines of the body that is written, whatever the keyword is. -/
def writtenLines (cs ms : List String) : List (List BodyToken) :=
  (if cs.isEmpty then [] else [constantList cs ++ [semicolon]]) ++ ms.map ([member ·])

theorem flatten_writtenLines_nil (ms : List String) :
    (writtenLines [] ms).flatten = ms.map member := by
  rw [writtenLines, if_pos List.isEmpty_nil, List.nil_append, ← List.flatMap_def,
    ← List.map_eq_flatMap]

theorem flatten_writtenLines_of_ne_nil {cs : List String} (hcs : cs ≠ []) (ms : List String) :
    (writtenLines cs ms).flatten = constantList cs ++ semicolon :: ms.map member := by
  rw [writtenLines, if_neg (mt List.isEmpty_iff.1 hcs), List.singleton_append, List.flatten_cons,
    ← List.flatMap_def, ← List.map_eq_flatMap, List.append_assoc, List.singleton_append]

end BodyToken

open BodyToken

/-- The text consists of these tokens, with blanks in front of them, between them and behind
them. -/
inductive Spells : List BodyToken → List Char → Prop
  | blank {gap : List Char} : ink gap = [] → Spells [] gap
  | token {gap s : List Char} {ts : List BodyToken} (t : BodyToken) :
      ink gap = [] → Spells ts s → Spells (t :: ts) (gap ++ t.text ++ s)

namespace Spells

variable {ts us : List BodyToken} {s s' gap : List Char} {cs ms : List String}

theorem single (t : BodyToken) : Spells [t] t.text := by
  have h : Spells [t] ([] ++ t.text ++ []) := .token t rfl (.blank rfl)
  rwa [List.nil_append, List.append_nil] at h

theorem blank_append (hgap : ink gap = []) (h : Spells ts s) : Spells ts (gap ++ s) := by
  cases h with
  | blank hs => exact .blank (by rw [ink_append, hgap, hs, List.nil_append])
  | token t hs h =>
    rw [← List.append_assoc, ← List.append_assoc]
    exact .token t (by rw [ink_append, hgap, hs, List.nil_append]) h

theorem append (h : Spells ts s) (h' : Spells us s') : Spells (ts ++ us) (s ++ s') := by
  induction h with
  | blank hgap => exact h'.blank_append hgap
  | token t hgap _ ih =>
    rw [List.append_assoc]
    exact .token t hgap ih

/-- Texts on lines of their own, with empty lines between them. -/
theorem intercalate {tss : List (List BodyToken)} {texts : List String}
    (h : List.Forall₂ (fun ts t ↦ Spells ts t.toList) tss texts) :
    Spells tss.flatten ("\n".intercalate texts).toList := by
  induction h with
  | nil => exact .blank rfl
  | cons h hs ih =>
    cases hs with
    | nil =>
      rw [String.intercalate_singleton, List.flatten_cons, List.flatten_nil, List.append_nil]
      exact h
    | cons =>
      have hline : Spells [] "\n".toList := .blank rfl
      rw [String.intercalate_cons_cons, String.toList_append, String.toList_append,
        List.append_assoc, List.flatten_cons]
      exact h.append (hline.append ih)

/-! ## What a text can be read as -/

/-- Blanks hold no token, so the ink of a text is that of its tokens. -/
theorem ink_eq (h : Spells ts s) : ink s = ts.flatMap (ink ·.text) := by
  induction h with
  | blank hgap => exact hgap
  | token t hgap _ ih =>
    rw [ink_append, ink_append, hgap, ih, List.nil_append, List.flatMap_cons]

/-- A text that two lists of tokens spell has no room for a semicolon more in one of them. -/
theorem not_of_semicolon {vs : List BodyToken} (h : Spells (ts ++ semicolon :: vs) s) :
    ¬ Spells vs s := by
  intro h'
  have hsemicolon : ink semicolon.text = [';'] := rfl
  have hink := h.ink_eq.symm.trans h'.ink_eq
  rw [List.flatMap_append, List.flatMap_cons, hsemicolon] at hink
  have hlength := congrArg List.length hink
  rw [List.length_append, List.length_append, List.length_singleton] at hlength
  omega

/-- What is written can be read as the body of an enum unless members come without a constant. -/
theorem exists_isEnumBody_iff (h : Spells (writtenLines cs ms).flatten s) :
    (∃ ts, IsEnumBody cs ms ts ∧ Spells ts s) ↔ (cs = [] → ms = []) := by
  constructor
  · rintro ⟨ts, hbody, hs⟩ rfl
    cases hbody with
    | bare hms => exact hms
    | ended =>
      rw [flatten_writtenLines_nil] at h
      exact absurd h hs.not_of_semicolon
  · intro hms
    by_cases hcs : cs = []
    · rw [hcs, flatten_writtenLines_nil, hms hcs] at h
      exact ⟨_, .bare (hms hcs), hcs ▸ h⟩
    · exact ⟨_, .ended, flatten_writtenLines_of_ne_nil hcs ms ▸ h⟩

/-- What is written can be read as members alone unless there is a constant. -/
theorem members_iff (h : Spells (writtenLines cs ms).flatten s) :
    Spells (ms.map member) s ↔ cs = [] := by
  constructor
  · intro hs
    by_contra hcs
    rw [flatten_writtenLines_of_ne_nil hcs] at h
    exact h.not_of_semicolon hs
  · rintro rfl
    exact flatten_writtenLines_nil ms ▸ h

end Spells

/-! ## What a sink appends -/

namespace Sink

/-- A text as it is written behind something on its line. -/
def continued (unit : String) (depth : Nat) (t : String) : String :=
  (({ unit, depth, atLineStart := false } : Sink).write t).text

/-- What the second sink holds more than the first is spelled by these tokens. -/
def Adds (s s' : Sink) (ts : List BodyToken) : Prop :=
  ∃ text, s'.text.toList = s.text.toList ++ text ∧ Spells ts text

variable {s s' s'' : Sink} {ts us : List BodyToken}

theorem Adds.trans (h : Adds s s' ts) (h' : Adds s' s'' us) : Adds s s'' (ts ++ us) := by
  obtain ⟨text, hs, hts⟩ := h
  obtain ⟨text', hs', hus⟩ := h'
  exact ⟨text ++ text', by rw [hs', hs, List.append_assoc], hts.append hus⟩

/-- At the start of a line a text has no more than indentation in front of it. -/
theorem exists_toList_text_write (he : s.lineEnd = "\n") (t : String) :
    ∃ gap, (∀ c ∈ gap, c ∈ s.unit.toList) ∧
      (s.write t).text.toList = s.text.toList ++ (gap ++ (continued s.unit s.depth t).toList) := by
  obtain ⟨gap, hgap, h⟩ := s.exists_continuation_eq (t.toList.map (s.depth, ·))
  refine ⟨gap, hgap, ?_⟩
  rw [toList_text_write, h, continued, toList_text_write, continuation, continuation, he]
  rfl

theorem adds_write (hu : ink s.unit.toList = []) (he : s.lineEnd = "\n") {t : String}
    (h : Spells ts (continued s.unit s.depth t).toList) : Adds s (s.write t) ts := by
  obtain ⟨gap, hgap, ht⟩ := exists_toList_text_write he t
  exact ⟨_, ht, h.blank_append (ink_eq_nil.2 fun c hc ↦ ink_eq_nil.1 hu c (hgap c hc))⟩

/-- A token with a blank behind it, on a line that has begun already or not. -/
theorem adds_write_token (hu : ink s.unit.toList = []) (he : s.lineEnd = "\n") {t : String}
    {token : BodyToken} (gap : List Char) (hgap : ink gap = [])
    (h : continued s.unit s.depth t = t) (ht : t.toList = token.text ++ gap) :
    Adds s (s.write t) [token] := by
  refine adds_write hu he ?_
  rw [h, ht]
  exact (Spells.single token).append (.blank hgap)

theorem adds_write_constants (hu : ink s.unit.toList = []) (he : s.lineEnd = "\n")
    (cs : List String) :
    Adds s (s.write (", ".intercalate cs)) (constantList (cs.map (continued s.unit s.depth))) := by
  induction cs generalizing s with
  | nil => exact ⟨[], (List.append_nil _).symm, .blank rfl⟩
  | cons c cs ih =>
    have hc : Adds s (s.write c) [constant (continued s.unit s.depth c)] :=
      adds_write hu he (.single (constant _))
    cases cs with
    | nil =>
      rw [String.intercalate_singleton]
      exact hc
    | cons d cs =>
      have hcomma : Adds (s.write c) ((s.write c).write ", ") [comma] :=
        adds_write_token (by rwa [unit_write]) (by rwa [lineEnd_write]) [' '] rfl rfl rfl
      have hrest := ih (s := (s.write c).write ", ") (by rwa [unit_write, unit_write])
        (by rwa [lineEnd_write, lineEnd_write])
      rw [unit_write, unit_write, depth_write, depth_write] at hrest
      rw [String.intercalate_cons_cons, write_append, write_append]
      exact (hc.trans hcomma).trans hrest

theorem adds_writeConstants (hu : ink s.unit.toList = []) (he : s.lineEnd = "\n")
    (cs : List String) :
    Adds s (writeConstants cs s)
      (constantList (cs.map (continued s.unit s.depth)) ++ [semicolon]) := by
  have hsemicolon : Adds (s.write (", ".intercalate cs))
      ((s.write (", ".intercalate cs)).write ";\n") [semicolon] :=
    adds_write_token (by rwa [unit_write]) (by rwa [lineEnd_write]) ['\n'] rfl rfl rfl
  have hwrite : writeConstants cs s = (s.write (", ".intercalate cs)).write ";\n" := by
    rw [writeConstants, writeLine_eq_write]
    rfl
  rw [hwrite]
  exact (adds_write_constants hu he cs).trans hsemicolon

end Sink

/-! ## Bodies of types -/

namespace TypeDecl

/-- The constants, each as it is written one step deep behind something on its line. -/
def constantTexts (t : TypeDecl) (unit : String) : List String :=
  t.constants.map (continued unit 1)

/-- The fields and the methods, each as it is written one step deep. -/
def memberTexts (t : TypeDecl) (unit : String) : List String :=
  t.fields.map (fun f ↦ (f.write { unit, depth := 1 }).text) ++
    t.methods.map (fun m ↦ (m.write { unit, depth := 1 }).text)

/-- Each part of a body is spelled by a line of tokens. -/
theorem spells_parts (t : TypeDecl) {unit : String} (hunit : ink unit.toList = []) :
    List.Forall₂ (fun ts text ↦ Spells ts text.toList)
      (writtenLines (t.constantTexts unit) (t.memberTexts unit))
      (t.parts.map fun p ↦ (p { unit, depth := 1 }).text) := by
  have hmembers : List.Forall₂ (fun ts text ↦ Spells ts text.toList)
      ((t.memberTexts unit).map ([member ·])) (t.memberTexts unit) :=
    List.forall₂_map_left_iff.2 (List.forall₂_same.2 fun m _ ↦ .single (member m))
  have hparts : t.parts.map (fun p ↦ (p { unit, depth := 1 }).text) =
      (if t.constants.isEmpty then []
        else [(writeConstants t.constants { unit, depth := 1 }).text]) ++ t.memberTexts unit := by
    rw [parts, memberTexts, List.map_append, List.map_append, List.map_map, List.map_map,
      List.append_assoc]
    split <;> rfl
  have hempty : (t.constantTexts unit).isEmpty = t.constants.isEmpty := List.isEmpty_map
  rw [hparts, writtenLines, hempty]
  split
  · exact hmembers
  · obtain ⟨text, htext, h⟩ := adds_writeConstants (s := { unit, depth := 1 }) hunit rfl t.constants
    rw [String.toList_empty, List.nil_append] at htext
    exact .cons (htext ▸ h) hmembers

/-- What is written between the braces. -/
theorem exists_block_eq (t : TypeDecl) {unit : String} (hunit : ink unit.toList = []) :
    ∃ body, t.block unit =
        t.docBlock unit ++ t.headText ++ " \x7b" ++ String.ofList body ++ "\x7d\n" ∧
      Spells (writtenLines (t.constantTexts unit) (t.memberTexts unit)).flatten body := by
  have hline : ink "\n".toList = [] := rfl
  refine ⟨_, ?_, (Spells.intercalate (t.spells_parts hunit)).blank_append hline⟩
  have hopen : " \x7b\n" = " \x7b" ++ "\n" := rfl
  rw [block_eq_writeParts, text_writeParts unit 1 t.exists_lays_of_mem_parts, String.ofList_append,
    String.ofList_toList, String.ofList_toList, hopen]
  simp only [String.append_assoc]

/-- Between the braces of a type's block stand its constants, with a semicolon behind them if there
are any, and then its members.  For an enum that is a body in the grammar of members if and only if
it has a constant or no member, and for a class or an interface it is its members alone if and only
if it has no constant. -/
theorem block_has_body {unit : String} (hunit : ∀ c ∈ unit.toList, isBlank c = true)
    (t : TypeDecl) :
    ∃ body, t.block unit =
        t.docBlock unit ++ t.headText ++ " \x7b" ++ String.ofList body ++ "\x7d\n" ∧
      Spells (writtenLines (t.constantTexts unit) (t.memberTexts unit)).flatten body ∧
      (t.keyword = "enum" →
        ((∃ ts, IsEnumBody (t.constantTexts unit) (t.memberTexts unit) ts ∧ Spells ts body) ↔
          (t.constants = [] → t.fields = [] ∧ t.methods = []))) ∧
      (t.keyword = "class" ∨ t.keyword = "interface" →
        (Spells ((t.memberTexts unit).map member) body ↔ t.constants = [])) := by
  obtain ⟨body, hblock, hbody⟩ := t.exists_block_eq (ink_eq_nil.2 hunit)
  have hconstants : t.constantTexts unit = [] ↔ t.constants = [] := List.map_eq_nil_iff
  have hmembers : t.memberTexts unit = [] ↔ t.fields = [] ∧ t.methods = [] := by
    rw [memberTexts, List.append_eq_nil_iff, List.map_eq_nil_iff, List.map_eq_nil_iff]
  refine ⟨body, hblock, hbody, fun _ ↦ ?_, fun _ ↦ ?_⟩
  · rw [hbody.exists_isEnumBody_iff, hconstants, hmembers]
  · rw [hbody.members_iff, hconstants]

/-- An enum with constants on two lines, a field and a method. -/
theorem block_has_body_with_constants : ∃ (t : TypeDecl) (body : List Char),
    t = { name := "E", keyword := "enum", constants := ["A", "B(1,\n2)"]
          fields := [{ name := "x", type := "int" }]
          methods := [{ name := "m", returnType := some "void", body := some "y();" }] } ∧
    (∀ c ∈ "    ".toList, isBlank c = true) ∧
    t.block "    " = "enum E \x7b" ++ String.ofList body ++ "\x7d\n" ∧
    ∃ ts, IsEnumBody ["A", "B(1,\n    2)"]
      ["    int x;\n", "    void m() \x7b\n        y();\n    \x7d\n"] ts ∧ Spells ts body := by
  have hunit : ∀ c ∈ "    ".toList, isBlank c = true := List.all_eq_true.1 (by decide)
  generalize ht : TypeDecl.mk _ _ _ _ = t
  obtain ⟨body, hblock, -, henum, -⟩ := t.block_has_body hunit
  have hopen : t.docBlock "    " ++ t.headText ++ " \x7b" = "enum E \x7b" := by
    rw [← ht]
    decide +kernel
  have hconstants : t.constantTexts "    " = ["A", "B(1,\n    2)"] := by
    rw [← ht]
    decide +kernel
  have hmembers : t.memberTexts "    " =
      ["    int x;\n", "    void m() \x7b\n        y();\n    \x7d\n"] := by
    rw [← ht]
    decide +kernel
  have hbody := (henum (by rw [← ht])).2 (by rw [← ht]; nofun)
  rw [hconstants, hmembers] at hbody
  exact ⟨t, body, rfl, hunit, hopen ▸ hblock, hbody⟩

/-- An enum with a field and without constants has no semicolon in front of the field. -/
theorem block_has_body_unended : ∃ (t : TypeDecl) (body : List Char),
    t = { name := "E", keyword := "enum", fields := [{ name := "x", type := "int" }] } ∧
    t.block "    " = "enum E \x7b" ++ String.ofList body ++ "\x7d\n" ∧
    String.ofList body = "\n    int x;\n" ∧
    ¬ ∃ ts, IsEnumBody [] ["    int x;\n"] ts ∧ Spells ts body := by
  refine ⟨_, "\n    int x;\n".toList, rfl, by decide +kernel, String.ofList_toList, ?_⟩
  have hline : ink "\n".toList = [] := rfl
  have hbody : Spells (writtenLines [] ["    int x;\n"]).flatten "\n    int x;\n".toList :=
    (Spells.single (member "    int x;\n")).blank_append hline
  rw [hbody.exists_isEnumBody_iff]
  exact fun h ↦ List.cons_ne_nil _ _ (h rfl)

end TypeDecl

end JavaOutline
