import JavaOutline.Proofs.Tree.HeaderComments

/-! # The texts of an outline are parts of the text

Whatever the shape of a tree, its outline can only fail where a node cuts a character, or at once
where the text cannot be encoded.  And whatever is read off a node is the text between the positions
of its two ends: of names, types, initializers, modifiers and so on nothing is made up and nothing
is lost (`outline_texts`). -/

namespace JavaOutline

open Text

namespace SyntaxTree

variable {src : List Char} {t v : SyntaxTree}

/-! ## The text of a node -/

/-- The text between the positions of the ends of a node. -/
def extent (src : List Char) (t : SyntaxTree) : String :=
  String.ofList (between src t.label.start t.label.stop)

/-- The text of a node that may be missing, empty if it is. -/
def extentD (src : List Char) (o : Option SyntaxTree) : String := (o.map (extent src)).getD ""

/-- The text of the first child in a field, empty without one. -/
def fieldExtent (src : List Char) (t : SyntaxTree) (field : String) : String :=
  extentD src (t.fieldChild? field)

/-- The text of a type, and that of the brackets behind the declared name. -/
def typeExtent (src : List Char) (t dims : SyntaxTree) : String :=
  t.fieldExtent src "type" ++ dims.fieldExtent src "dimensions"

theorem string_eq_ok_iff {s : String} :
    t.string src = .ok s ↔
      (t.label.start < t.label.stop →
        CutsNone src t.label.start ∧ CutsNone src t.label.stop) ∧ s = t.extent src := by
  rw [string, map_eq_ok_iff]
  constructor
  · rintro ⟨cs, hcs, rfl⟩
    obtain ⟨hcut, rfl⟩ := slice_eq_ok_iff.1 hcs
    exact ⟨hcut, rfl⟩
  · rintro ⟨hcut, rfl⟩
    exact ⟨_, slice_eq_ok_iff.2 ⟨hcut, rfl⟩, rfl⟩

theorem eq_extent {s : String} (h : t.string src = .ok s) : s = t.extent src :=
  (string_eq_ok_iff.1 h).2

theorem eq_extentD {o : Option SyntaxTree} {s : String} (h : stringD src o = .ok s) :
    s = extentD src o := by
  cases o with
  | none => exact (Except.ok.inj h).symm
  | some t => exact eq_extent h

theorem eq_fieldExtent {f s : String} (h : t.fieldString src f = .ok s) :
    s = t.fieldExtent src f := eq_extentD h

theorem eq_typeExtent {s : String} (h : typeString src t v = .ok s) : s = typeExtent src t v := by
  obtain ⟨a, ha, h⟩ := bind_eq_ok_iff.1 h
  obtain ⟨b, hb, h⟩ := bind_eq_ok_iff.1 h
  rw [← Except.ok.inj h, eq_fieldExtent ha, eq_fieldExtent hb, typeExtent]

theorem eq_map_extent {ts : List SyntaxTree} {ss : List String}
    (h : ts.mapM (string src) = .ok ss) : ss = ts.map (extent src) := by
  replace h := mapM_eq_ok_iff.1 h
  induction h with
  | nil => rfl
  | cons hs _ ih => rw [eq_extent hs, ih, List.map_cons]

theorem eq_option_map_extent {o : Option SyntaxTree} {r : Option String}
    (h : o.mapM (string src) = .ok r) : r = o.map (extent src) := by
  cases o with
  | none => exact (Except.ok.inj h).symm
  | some t =>
    obtain ⟨s, hs, rfl⟩ := map_eq_ok_iff.1 h
    rw [eq_extent hs, Option.map_some]

theorem eq_nonEmpty?_fieldExtent {f : String} {r : Option String}
    (h : nonEmpty? <$> t.fieldString src f = .ok r) : r = nonEmpty? (t.fieldExtent src f) := by
  obtain ⟨s, hs, rfl⟩ := map_eq_ok_iff.1 h
  rw [eq_fieldExtent hs]

/-! ## The parts of a declaration -/

theorem modifiers_of_header {before : Option SyntaxTree} {name : String} {line : Int} {h : Header}
    (hh : t.header src before name line = .ok h) :
    h.modifiers = t.modifierNodes.map (extent src) := by
  obtain ⟨ms, _, hms, _, rfl⟩ := header_eq_ok_iff.1 hh
  rw [modifiers_eq_mapM] at hms
  exact eq_map_extent hms

/-- The nodes that may be the type of a parameter behind which dots stand. -/
def spreadNodes (cs : List SyntaxTree) : List SyntaxTree :=
  cs.filter fun c ↦ c.kind != "variable_declarator" && c.kind != "modifiers"

/-- The type of a parameter; before dots it is the first one with any text. -/
def parameterExtent (src : List Char) (t : SyntaxTree) : String :=
  if t.kind = "spread_parameter" then
    (((spreadNodes t.namedChildren).map (extent src)).find? (!·.isEmpty)).getD ""
  else typeExtent src t t

theorem eq_find?_of_spreadParts {cs : List SyntaxTree} {name : String} {parts : String × String}
    (h : spreadParts src cs ("", name) = .ok parts) :
    parts.1 = (((spreadNodes cs).map (extent src)).find? (!·.isEmpty)).getD "" := by
  induction cs generalizing name with
  | nil => rw [← Except.ok.inj h]; rfl
  | cons c cs ih =>
    rw [spreadParts] at h
    by_cases hd : c.kind = "variable_declarator"
    · rw [if_pos hd] at h
      obtain ⟨n, _, h⟩ := bind_eq_ok_iff.1 h
      rw [ih h, spreadNodes, spreadNodes, List.filter_cons_of_neg (by simp [hd])]
    · rw [if_neg hd] at h
      by_cases hm : c.kind = "modifiers"
      · rw [if_neg fun hc ↦ hc.1 hm] at h
        rw [ih h, spreadNodes, spreadNodes, List.filter_cons_of_neg (by simp [hm])]
      · rw [if_pos ⟨hm, rfl⟩] at h
        obtain ⟨s, hs, h⟩ := bind_eq_ok_iff.1 h
        obtain rfl := eq_extent hs
        rw [spreadNodes, List.filter_cons_of_pos (by simp [hd, hm]), List.map_cons]
        by_cases he : c.extent src = ""
        · rw [he] at h ⊢
          rw [List.find?_cons_of_neg (by simp), ih h, spreadNodes]
        · rw [List.find?_cons_of_pos (by simpa using he), Option.getD_some]
          exact type_of_spreadParts he h

/-- The texts of a parameter are those of its nodes. -/
structure ParameterTexts (src : List Char) (t : SyntaxTree) (p : Parameter) : Prop where
  name : p.name = extentD src t.parameterName?
  type : p.type = t.parameterExtent src
  modifiers : p.modifiers = t.modifierNodes.map (extent src)

theorem IsParameter.texts {p : Parameter} (ht : t.isParameter) (h : IsParameter src t p) :
    ParameterTexts src t p := by
  have hm := h.modifiers
  rw [modifiers_eq_mapM] at hm
  refine ⟨eq_extentD h.name, ?_, eq_map_extent hm⟩
  rw [isParameter, Bool.or_eq_true, beq_iff_eq, beq_iff_eq] at ht
  rw [parameterExtent]
  split
  next hs =>
    obtain ⟨n, hn⟩ := h.spread hs
    exact eq_find?_of_spreadParts hn
  next hs => exact eq_typeExtent (h.type (ht.resolve_right hs))

/-- The texts of a field are those of its declarator and its declaration. -/
structure FieldTexts (src : List Char) (t v : SyntaxTree) (f : Field) : Prop where
  name : f.name = v.fieldExtent src "name"
  type : f.type = typeExtent src t v
  initializer : f.initializer = (v.fieldChild? "value").map (extent src)
  modifiers : f.modifiers = t.modifierNodes.map (extent src)

theorem IsField.texts {before : Option SyntaxTree} {f : Field} (h : IsField src before t v f) :
    FieldTexts src t v f :=
  ⟨eq_fieldExtent h.name, eq_typeExtent h.type, eq_option_map_extent h.initializer,
    modifiers_of_header h.header⟩

/-- The texts of a method are those of its nodes; a constructor has no type. -/
structure MethodTexts (src : List Char) (t : SyntaxTree) (m : Method) : Prop where
  name : m.name = t.fieldExtent src "name"
  returnType : m.returnType = if t.role = .method true then none else some (typeExtent src t t)
  exceptions : m.exceptions = t.exceptionNodes.map (extent src)
  typeParameters : m.typeParameters = nonEmpty? (t.fieldExtent src "type_parameters")
  modifiers : m.modifiers = t.modifierNodes.map (extent src)
  parameters : List.Forall₂ (ParameterTexts src) t.parameterNodes m.parameters

theorem IsMethod.texts {before : Option SyntaxTree} {m : Method} (h : IsMethod src before t m) :
    MethodTexts src t m := by
  have he := h.exceptions
  rw [exceptions_eq_mapM] at he
  refine ⟨eq_fieldExtent h.name, ?_, eq_map_extent he, eq_nonEmpty?_fieldExtent h.typeParameters,
    modifiers_of_header h.header, ?_⟩
  · have hr := h.returnType
    by_cases hc : t.role = .method true
    · rw [if_pos (by rw [h.constructor]; simpa using hc)] at hr
      rw [if_pos hc, hr]
    · rw [if_neg (by rw [h.constructor]; simpa using hc)] at hr
      obtain ⟨s, hs, hr⟩ := hr
      rw [if_neg hc, hr, eq_typeExtent hs]
  · have hp : ∀ c ∈ t.parameterNodes, c.isParameter := fun c ↦ isParameter_of_mem_parameterNodes
    exact ((List.forall₂_and_left _ _).2 ⟨hp, h.parameters⟩).imp fun c p hc ↦ hc.2.texts hc.1

/-- The texts of a type are those of its nodes, and so are those of all that it declares. -/
structure TypeTexts (src : List Char) (s : Site) (d : TypeDecl) : Prop where
  name : d.name = s.2.fieldExtent src "name"
  typeParameters : d.typeParameters = nonEmpty? (s.2.fieldExtent src "type_parameters")
  superclass : d.superclass =
    ((s.2.fieldChild? "superclass").bind (·.namedChildren.getLast?)).map (extent src)
  interfaces : d.interfaces = s.2.interfaceNodes.map (extent src)
  modifiers : d.modifiers = s.2.modifierNodes.map (extent src)
  constants : d.constants = (constantSites s).map fun c ↦ c.2.fieldExtent src "name"
  fields : List.Forall₂ (fun p f ↦ FieldTexts src p.1.2 p.2 f) (fieldSites s) d.fields
  methods : List.Forall₂ (fun c m ↦ MethodTexts src c.2 m) (methodSites s) d.methods

theorem IsType.texts {root : SyntaxTree} {s : Site} {d : TypeDecl} (h : IsType src root s d) :
    TypeTexts src s d := by
  have hi := h.interfaces
  rw [interfaces_eq_mapM] at hi
  refine ⟨eq_fieldExtent h.name, eq_nonEmpty?_fieldExtent h.typeParameters,
    eq_option_map_extent h.superclass, eq_map_extent hi, modifiers_of_header h.header, ?_,
    h.fields.imp fun _ _ ↦ IsField.texts, h.methods.imp fun _ _ ↦ IsMethod.texts⟩
  have hc := h.constants
  generalize constantSites s = cs, d.constants = ns at hc
  induction hc with
  | nil => rfl
  | cons hn _ ih => rw [eq_fieldExtent hn, ih, List.map_cons]

/-! ## Outlines -/

/-- The fault names the extent of a node that cuts a character. -/
def CutBy (src : List Char) (root : SyntaxTree) (e : CutCharacter) : Prop :=
  ∃ π t, root.at? π = some t ∧ e = ⟨t.label.start, t.label.stop⟩ ∧ e.start < e.stop ∧
    ¬ (CutsNone src e.start ∧ CutsNone src e.stop)

/-- A node at a place of a tree is read but where some node of the tree cuts a character. -/
theorem reads_of_at? {root : SyntaxTree} {π : Place} {t : SyntaxTree} (h : root.at? π = some t) :
    Reads (CutBy src root) src t := by
  cases t with
  | node l cs =>
    refine .node (fun e he ↦ ?_) fun c hc ↦ ?_
    · obtain rfl := eq_of_slice_eq_error he
      refine ⟨π, .node l cs, h, rfl, ?_⟩
      by_contra hcut
      have hok := slice_eq_ok_iff.2 ⟨fun hlt ↦ by_contra fun hn ↦ hcut ⟨hlt, hn⟩, rfl⟩
      rw [hok] at he
      cases he
    · obtain ⟨i, hi⟩ := List.getElem?_of_mem hc
      have hlt := List.sizeOf_lt_of_mem hc
      exact reads_of_at? ((at?_cons h i).trans hi)
termination_by sizeOf t
decreasing_by
  subst_vars
  rw [node.sizeOf_spec]
  omega

/-- The texts of an outline are those of the nodes of the tree. -/
structure UnitTexts (src : List Char) (root : SyntaxTree) (u : CompilationUnit) : Prop where
  package : u.package = root.packageNode?.map (extent src)
  types : List.Forall₂ (TypeTexts src) root.typeSites u.types

theorem unitTexts_of_ofTree {src : String} {root : SyntaxTree} {path : Option String}
    {u : CompilationUnit} (h : CompilationUnit.ofTree src root path = .ok u) :
    UnitTexts src.toList root u := by
  refine ⟨?_, (isType_of_ofTree h).imp fun _ _ ↦ IsType.texts⟩
  obtain ⟨p, hp, h⟩ := bind_eq_ok_iff.1 h
  obtain ⟨is, _, h⟩ := bind_eq_ok_iff.1 h
  obtain ⟨ts, _, h⟩ := bind_eq_ok_iff.1 h
  rw [← Except.ok.inj h]
  exact eq_option_map_extent hp

/-- The outline of a text that is made of characters. -/
theorem ofTree_texts (src : String) (root : SyntaxTree) (path : Option String) :
    ((∃ u, CompilationUnit.ofTree src root path = .ok u ∧ UnitTexts src.toList root u) ∨
        ∃ e, CompilationUnit.ofTree src root path = .error e ∧ CutBy src.toList root e) ∧
      ((∀ π t, root.at? π = some t →
          CutsNone src.toList t.label.start ∧ CutsNone src.toList t.label.stop) →
        ∃ u, CompilationUnit.ofTree src root path = .ok u ∧ UnitTexts src.toList root u) := by
  have hreads : Reads (CutBy src.toList root) src.toList root := reads_of_at? (π := []) rfl
  have hfails := hreads.ofTree path
  constructor
  · cases h : CompilationUnit.ofTree src root path with
    | ok u => exact .inl ⟨u, rfl, unitTexts_of_ofTree h⟩
    | error e => exact .inr ⟨e, rfl, hfails e h⟩
  · intro hcut
    obtain ⟨u, hu⟩ : Succeeds (CompilationUnit.ofTree src root path) := by
      apply FailsOnly.succeeds
      intro e he
      obtain ⟨π, t, ht, rfl, -, hne⟩ := hfails e he
      exact hne (hcut π t ht)
    exact ⟨u, hu, unitTexts_of_ofTree hu⟩

/-! ## Texts with surrogates -/

/-- The fault says where the first surrogates of a text stand. -/
def SurrogatesAt (src : List CodePoint) (e : LoneSurrogate) : Prop :=
  ∃ (before : List Char) (behind : List CodePoint),
    src = before.map .char ++ .surrogate e.first :: behind ∧
    e.position = before.length ∧ e.more = (behind.takeWhile CodePoint.isSurrogate).length

/-- A text is made of characters, or encoding it fails at its first surrogates. -/
theorem charsFrom_eq (n : Nat) (src : List CodePoint) :
    (∃ cs, src = cs.map .char ∧ CodePoint.charsFrom n src = .ok cs) ∨
      ∃ e, SurrogatesAt src e ∧
        CodePoint.charsFrom n src = .error { e with position := n + e.position } := by
  induction src generalizing n with
  | nil => exact .inl ⟨[], rfl, rfl⟩
  | cons p src ih =>
    cases p with
    | surrogate k =>
      exact .inr ⟨⟨0, k, (src.takeWhile CodePoint.isSurrogate).length⟩, ⟨[], src, rfl, rfl, rfl⟩,
        rfl⟩
    | char c =>
      rw [CodePoint.charsFrom]
      obtain ⟨cs, rfl, hcs⟩ | ⟨e, ⟨before, behind, rfl, hposition, hmore⟩, he⟩ := ih (n + 1)
      · exact .inl ⟨c :: cs, rfl, by rw [hcs]; rfl⟩
      · refine .inr ⟨⟨e.position + 1, e.first, e.more⟩, ⟨c :: before, behind, rfl, ?_, hmore⟩, ?_⟩
        · rw [hposition, List.length_cons]
        · rw [he, show n + 1 + e.position = n + (e.position + 1) by omega]
          rfl

theorem encode_eq (src : List CodePoint) :
    (∃ s, src = CodePoint.ofString s ∧ CodePoint.encode src = .ok s) ∨
      ∃ e, SurrogatesAt src e ∧ CodePoint.encode src = .error e := by
  rw [CodePoint.encode]
  obtain ⟨cs, rfl, hcs⟩ | ⟨e, hat, he⟩ := charsFrom_eq 0 src
  · exact .inl ⟨String.ofList cs, by rw [CodePoint.ofString, String.toList_ofList], by
      rw [hcs]; rfl⟩
  · rw [Nat.zero_add] at he
    exact .inr ⟨e, hat, by rw [he]; rfl⟩

/-- Whatever the text and the shape of its tree: a text with surrogates cannot be encoded, and the
fault names the first ones.  Any other text is made of characters; then there is an outline, or the
fault names a node that cuts a character, and where no node does there is an outline.  In it every
name, type, initializer, superclass, enum constant, interface, exception, type parameter and
modifier is the text between the positions of the ends of its node, empty without a node. -/
theorem outline_texts (src : List CodePoint) (root : SyntaxTree) (path : Option String) :
    (∃ e, SurrogatesAt src e ∧ CompilationUnit.ofText src root path = .error (.unencodable e)) ∨
      ∃ s : String, src = CodePoint.ofString s ∧
        ((∃ u, CompilationUnit.ofText src root path = .ok u ∧ UnitTexts s.toList root u) ∨
          ∃ e, CompilationUnit.ofText src root path = .error (.cut e) ∧ CutBy s.toList root e) ∧
        ((∀ π t, root.at? π = some t →
            CutsNone s.toList t.label.start ∧ CutsNone s.toList t.label.stop) →
          ∃ u, CompilationUnit.ofText src root path = .ok u ∧ UnitTexts s.toList root u) := by
  have hok : ∀ s u, CodePoint.encode src = .ok s → CompilationUnit.ofTree s root path = .ok u →
      CompilationUnit.ofText src root path = .ok u := fun s u hs hu ↦ by
    rw [CompilationUnit.ofText, hs]
    simp only [hu]
  obtain ⟨s, hsrc, hs⟩ | ⟨e, hat, he⟩ := encode_eq src
  · obtain ⟨hany, hwhole⟩ := ofTree_texts s root path
    refine .inr ⟨s, hsrc, hany.imp ?_ ?_, fun hcut ↦ ?_⟩
    · rintro ⟨u, hu, htexts⟩
      exact ⟨u, hok s u hs hu, htexts⟩
    · rintro ⟨e, he, hcut⟩
      refine ⟨e, ?_, hcut⟩
      rw [CompilationUnit.ofText, hs]
      simp only [he]
    · obtain ⟨u, hu, htexts⟩ := hwhole hcut
      exact ⟨u, hok s u hs hu, htexts⟩
  · refine .inl ⟨e, hat, ?_⟩
    rw [CompilationUnit.ofText, he]

/-- A text of one surrogate, with a tree whose only node is empty: there is no outline, and it is
not for a character that is cut. -/
theorem outline_of_surrogate :
    ∃ (src : List CodePoint) (root : SyntaxTree), src = [.surrogate 0] ∧
      root = .node { kind := "program", start := 0, stop := 0, row := 0 } [] ∧
      (∀ u, CompilationUnit.ofText src root none ≠ .ok u) ∧
      ∀ e, CompilationUnit.ofText src root none ≠ .error (.cut e) :=
  ⟨_, _, rfl, rfl, nofun, nofun⟩

end SyntaxTree

end JavaOutline
