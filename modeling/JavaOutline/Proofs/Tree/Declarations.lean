import JavaOutline.Proofs.Outcome
import JavaOutline.Proofs.Tree.Walk
import JavaOutline.Tree.Outline

/-! # The declarations of a tree are those of its outline

The types of an outline, their fields, methods and constants and the methods' parameters are read
off the nodes of the tree that declare them: one for each, in the order of the text, and from no
other node.

A node that declares a type is a child of the root.  What a type declares is met by the walk through
its body (`JavaOutline.Proofs.Tree.Walk`), and a field declaration declares one field for each of
its declarators. -/

namespace JavaOutline

open Text

namespace SyntaxTree

/-! ## Nodes that declare something -/

/-- What a child of a body is taken for. -/
inductive Role where
  | fields
  | method (constructor : Bool)
  | constant
  | group
  | passed
deriving DecidableEq

def role (t : SyntaxTree) : Role :=
  if t.kind = "field_declaration" ∨ t.kind = "constant_declaration" then .fields
  else if t.kind = "method_declaration" then .method false
  else if t.kind = "constructor_declaration" then .method true
  else if t.kind = "enum_constant" then .constant
  else if t.kind = "enum_body_declarations" then .group
  else .passed

def declaresFields (t : SyntaxTree) : Bool := t.role = .fields

def declaresMethod (t : SyntaxTree) : Bool := t.role = .method false ∨ t.role = .method true

def declaresConstant (t : SyntaxTree) : Bool := t.role = .constant

theorem isGroup_eq_false {t : SyntaxTree} (h : t.role ≠ .group) : t.isGroup = false := by
  by_contra hg
  have hk : t.kind = "enum_body_declarations" := by simpa [isGroup] using hg
  exact h (by simp [role, hk])

/-- The nodes that declare the types of a tree. -/
def typeSites (root : SyntaxTree) : List Site :=
  (childSites ([], root)).filter (·.2.typeKeyword?.isSome)

/-- The body of a type: its first child in that field. -/
def bodySite? (s : Site) : Option Site := (childSites s).find? (·.2.label.field == some "body")

/-- The nodes that the walk through the body of a type meets. -/
def bodySites (s : Site) : List Site := ((bodySite? s).map walk).getD []

/-- The pairs of a declaration and a declarator in the body of a type. -/
def fieldSites (s : Site) : List (Site × SyntaxTree) :=
  ((bodySites s).filter (·.2.declaresFields)).flatMap fun d ↦
    (d.2.fieldChildren "declarator").map (d, ·)

/-- The methods and constructors in the body of a type. -/
def methodSites (s : Site) : List Site := (bodySites s).filter (·.2.declaresMethod)

/-- The enum constants in the body of a type. -/
def constantSites (s : Site) : List Site := (bodySites s).filter (·.2.declaresConstant)

def isParameter (t : SyntaxTree) : Bool :=
  t.kind == "formal_parameter" || t.kind == "spread_parameter"

/-- The nodes that declare the parameters of a method. -/
def parameterNodes (t : SyntaxTree) : List SyntaxTree :=
  ((t.fieldChild? "parameters").map (·.namedChildren.filter isParameter)).getD []

theorem isParameter_of_mem_parameterNodes {t c : SyntaxTree} (hc : c ∈ t.parameterNodes) :
    c.isParameter := by
  rw [parameterNodes] at hc
  cases hps : t.fieldChild? "parameters" with
  | none => simp [hps] at hc
  | some ps =>
    rw [hps] at hc
    exact (List.mem_filter.1 hc).2

/-! ## What is read off a label

A child in a field is only looked at from outside. -/

variable {src : List Char}

theorem string_congr {t t' : SyntaxTree} (h : t.label = t'.label) :
    t.string src = t'.string src := by
  rw [string, string, text, text, h]

theorem stringD_congr {o o' : Option SyntaxTree} (h : o.map label = o'.map label) :
    stringD src o = stringD src o' := by
  match o, o' with
  | none, none => rfl
  | some _, some _ => exact string_congr (Option.some.inj h)

theorem label_fieldChild? (t : SyntaxTree) (f : String) :
    (t.fieldChild? f).map label = (t.children.map label).find? (·.field == some f) := by
  rw [fieldChild?, List.find?_map]
  rfl

theorem fieldString_congr {t t' : SyntaxTree} (h : t.children.map label = t'.children.map label)
    (f : String) : t.fieldString src f = t'.fieldString src f := by
  rw [fieldString, fieldString]
  exact stringD_congr (by rw [label_fieldChild?, label_fieldChild?, h])

theorem typeKeyword?_congr {t t' : SyntaxTree} (h : t.label = t'.label) :
    t.typeKeyword? = t'.typeKeyword? := by
  match t, t' with
  | .node l _, .node l' _ =>
    obtain rfl : l = l' := h
    rfl

/-! ## What is read off a node -/

variable {before : Option SyntaxTree} {t v : SyntaxTree}

theorem header_eq_ok_iff {name : String} {line : Int} {h : Header} :
    t.header src before name line = .ok h ↔
      ∃ ms doc, t.modifiers src = .ok ms ∧ documentation src before = .ok doc ∧
        h = { name, line, modifiers := ms, comment := doc.body, tags := doc.tags } := by
  simp only [header, bind_eq_ok_iff, exists_and_left]
  refine exists_congr fun ms ↦ and_congr_right fun _ ↦ exists_congr fun doc ↦
    and_congr_right fun _ ↦ ⟨fun h ↦ (Except.ok.inj h).symm, fun h ↦ h ▸ rfl⟩

/-- The field is read off the declarator and its declaration. -/
structure IsField (src : List Char) (before : Option SyntaxTree) (t v : SyntaxTree) (f : Field) :
    Prop where
  name : v.fieldString src "name" = .ok f.name
  type : typeString src t v = .ok f.type
  initializer : (v.fieldChild? "value").mapM (string src) = .ok f.initializer
  header : t.header src before f.name v.line = .ok f.toHeader

theorem name_of_header {name : String} {line : Int} {h : Header}
    (hh : t.header src before name line = .ok h) : h.name = name := by
  obtain ⟨_, _, _, _, rfl⟩ := header_eq_ok_iff.1 hh
  rfl

theorem isField_of_field {f : Field} (h : t.field src before v = .ok f) :
    IsField src before t v f := by
  simp only [field, bind_eq_ok_iff] at h
  obtain ⟨n, hn, ty, hty, i, hi, hd, hh, h⟩ := h
  cases Except.ok.inj h
  obtain rfl := name_of_header hh
  exact ⟨hn, hty, hi, hh⟩

theorem isField_of_fields {fs : List Field} (h : t.fields src before = .ok fs) :
    List.Forall₂ (IsField src before t) (t.fieldChildren "declarator") fs := by
  rw [fields, bind_eq_ok_iff] at h
  obtain ⟨_, _, h⟩ := h
  exact (mapM_eq_ok_iff.1 h).imp fun _ _ ↦ isField_of_field

/-- The node of a parameter's name; behind dots it is that of the last declarator. -/
def parameterName? (t : SyntaxTree) : Option SyntaxTree :=
  if t.kind = "spread_parameter" then
    (t.namedChildren.filter (·.kind == "variable_declarator")).getLast?.bind (·.fieldChild? "name")
  else t.fieldChild? "name"

/-- The parameter is read off the node. -/
structure IsParameter (src : List Char) (t : SyntaxTree) (p : Parameter) : Prop where
  name : stringD src t.parameterName? = .ok p.name
  type : t.kind = "formal_parameter" → typeString src t t = .ok p.type
  spread : t.kind = "spread_parameter" →
    ∃ name, spreadParts src t.namedChildren ("", "") = .ok (p.type, name)
  modifiers : t.modifiers src = .ok p.modifiers
  varargs : p.varargs = (t.kind == "spread_parameter")
  line : p.line = t.line
  comment : p.comment = none
  tags : p.tags = []

theorem name_of_spreadParts {cs : List SyntaxTree} {parts parts' : String × String}
    (h : spreadParts src cs parts = .ok parts') :
    match (cs.filter (·.kind == "variable_declarator")).getLast? with
    | none => parts'.2 = parts.2
    | some d => d.fieldString src "name" = .ok parts'.2 := by
  induction cs generalizing parts with
  | nil => exact congrArg Prod.snd (Except.ok.inj h).symm
  | cons c cs ih =>
    obtain ⟨type, name⟩ := parts
    rw [spreadParts] at h
    by_cases hc : c.kind = "variable_declarator"
    · rw [if_pos hc, bind_eq_ok_iff] at h
      obtain ⟨n, hn, h⟩ := h
      have ih := ih h
      rw [List.filter_cons_of_pos (by simpa using hc), List.getLast?_cons]
      cases hl : (cs.filter (·.kind == "variable_declarator")).getLast? with
      | none => rw [hl] at ih; exact ih ▸ hn
      | some d => rw [hl] at ih; exact ih
    · rw [if_neg hc] at h
      rw [List.filter_cons_of_neg (by simpa using hc)]
      split at h
      · obtain ⟨ty, _, h⟩ := bind_eq_ok_iff.1 h
        have ih := ih h
        exact ih
      · exact ih h

theorem isParameter_of_parameter? {o : Option Parameter} (h : parameter? src t = .ok o) :
    if t.isParameter then ∃ p, o = some p ∧ IsParameter src t p else o = none := by
  rw [parameter?] at h
  by_cases hf : t.kind = "formal_parameter"
  · rw [if_pos (by simp [isParameter, hf])]
    simp only [hf, if_true, bind_eq_ok_iff] at h
    obtain ⟨n, hn, ty, hty, ms, hms, h⟩ := h
    cases Except.ok.inj h
    refine ⟨_, rfl, ?_, fun _ ↦ hty, fun hs ↦ by simp [hf] at hs, hms, by simp [hf], rfl, rfl, rfl⟩
    rwa [parameterName?, if_neg (by simp [hf])]
  · by_cases hs : t.kind = "spread_parameter"
    · rw [if_pos (by simp [isParameter, hs])]
      rw [if_neg hf, if_pos hs] at h
      obtain ⟨⟨ty, n⟩, hn, h⟩ := bind_eq_ok_iff.1 h
      obtain ⟨ms, hms, h⟩ := bind_eq_ok_iff.1 h
      cases Except.ok.inj h
      refine ⟨_, rfl, ?_, fun h ↦ absurd h hf, fun _ ↦ ⟨n, hn⟩, hms, by simp [hs], rfl, rfl, rfl⟩
      have hn := name_of_spreadParts hn
      rw [parameterName?, if_pos hs]
      cases hl : (t.namedChildren.filter (·.kind == "variable_declarator")).getLast? with
      | none => rw [hl] at hn; exact congrArg Except.ok hn.symm
      | some d => rw [hl] at hn; exact hn
    · rw [if_neg (by simp [isParameter, hf, hs])]
      rw [if_neg hf, if_neg hs] at h
      exact (Except.ok.inj h).symm

theorem isParameter_of_parameters {ps : List Parameter} (h : t.parameters src = .ok ps) :
    List.Forall₂ (IsParameter src) t.parameterNodes ps := by
  rw [parameters] at h
  rw [parameterNodes]
  cases hp : t.fieldChild? "parameters" with
  | none =>
    rw [hp] at h
    cases Except.ok.inj h
    exact .nil
  | some l =>
    rw [hp] at h
    obtain ⟨os, hos, rfl⟩ := map_eq_ok_iff.1 h
    exact forall₂_filter_filterMap (mapM_eq_ok_iff.1 hos) fun _ _ ↦ isParameter_of_parameter?

/-- The method or constructor is read off the node. -/
structure IsMethod (src : List Char) (before : Option SyntaxTree) (t : SyntaxTree) (m : Method) :
    Prop where
  name : t.fieldString src "name" = .ok m.name
  constructor : m.constructor = (t.role = .method true)
  returnType : if m.constructor then m.returnType = none
    else ∃ s, typeString src t t = .ok s ∧ m.returnType = some s
  exceptions : t.exceptions src = .ok m.exceptions
  typeParameters : nonEmpty? <$> t.fieldString src "type_parameters" = .ok m.typeParameters
  body : t.body? src = .ok m.body
  header : t.header src before m.name t.line = .ok m.toHeader
  parameters : List.Forall₂ (IsParameter src) t.parameterNodes m.parameters

theorem method_eq (src : List Char) (before : Option SyntaxTree) (t : SyntaxTree) (c : Bool) :
    t.method src before c = (do
      let returnType ← (if c then pure none else some <$> typeString src t t)
      let name ← t.fieldString src "name"
      let exceptions ← t.exceptions src
      let typeParameters ← nonEmpty? <$> t.fieldString src "type_parameters"
      let body ← t.body? src
      let h ← t.header src before name t.line
      let parameters ← t.parameters src
      pure { h with
        returnType, exceptions, typeParameters, body, constructor := c, parameters }) := by
  cases c <;> rfl

theorem isMethod_of_method {c : Bool} {m : Method} (hc : c = (t.role = .method true))
    (h : t.method src before c = .ok m) : IsMethod src before t m := by
  simp only [method_eq, bind_eq_ok_iff] at h
  obtain ⟨r, hr, n, hn, es, hes, tp, htp, b, hb, hd, hh, ps, hps, h⟩ := h
  cases Except.ok.inj h
  obtain rfl := name_of_header hh
  refine ⟨hn, hc, ?_, hes, htp, hb, hh, isParameter_of_parameters hps⟩
  cases c with
  | true => exact (Except.ok.inj hr).symm
  | false =>
    obtain ⟨s, hs, hr⟩ := map_eq_ok_iff.1 hr
    exact ⟨s, hs, hr.symm⟩

/-! ## What is read off a body -/

/-- What a node adds to a type, by what the node is taken for. -/
inductive Adds (src : List Char) (before : Option SyntaxTree) (t : SyntaxTree) : Member → Prop
  | fields {fs : List Field} (hr : t.role = .fields) (h : t.fields src before = .ok fs) :
      Adds src before t (.fields fs)
  | method {c : Bool} {m : Method} (hr : t.role = .method c)
      (h : t.method src before c = .ok m) : Adds src before t (.method m)
  | constant {n : String} (hr : t.role = .constant) (h : t.fieldString src "name" = .ok n) :
      Adds src before t (.constant n)
  | nothing (hr : t.role = .group ∨ t.role = .passed) : Adds src before t .nothing

theorem member_eq (src : List Char) (before : Option SyntaxTree) (t : SyntaxTree) :
    member src (before, t) = match t.role with
      | .fields => .fields <$> t.fields src before
      | .method c => .method <$> t.method src before c
      | .constant => .constant <$> t.fieldString src "name"
      | .group | .passed => pure .nothing := by
  rw [member, role]
  split_ifs <;> rfl

theorem adds_of_member {m : Member} (h : member src (before, t) = .ok m) :
    Adds src before t m := by
  rw [member_eq] at h
  split at h
  · next hr => obtain ⟨fs, hfs, rfl⟩ := map_eq_ok_iff.1 h; exact .fields hr hfs
  · next c hr => obtain ⟨m, hm, rfl⟩ := map_eq_ok_iff.1 h; exact .method hr hm
  · next hr => obtain ⟨n, hn, rfl⟩ := map_eq_ok_iff.1 h; exact .constant hr hn
  · next hr => cases Except.ok.inj h; exact .nothing (.inl hr)
  · next hr => cases Except.ok.inj h; exact .nothing (.inr hr)

variable {root : SyntaxTree} {s : Site} {ms : List Member}

theorem fieldChild?_body (s : Site) : s.2.fieldChild? "body" = (bodySite? s).map Prod.snd := by
  rw [bodySite?, fieldChild?, ← map_snd_childSites s, List.find?_map]
  rfl

/-- The members of a type are read off the nodes that the walk meets, groups left out. -/
theorem member_of_members (hs : root.at? s.1 = some s.2) (h : s.2.members src = .ok ms) :
    List.Forall₂ (fun c m ↦ member src (root.nodeBefore? c.1, c.2) = .ok m)
      ((bodySites s).filter (!·.2.isGroup)) ms := by
  rw [members, fieldChild?_body] at h
  rw [bodySites]
  cases hb : bodySite? s with
  | none =>
    rw [hb] at h
    cases Except.ok.inj h
    exact .nil
  | some b =>
    rw [hb] at h
    have hb' : root.at? b.1 = some b.2 :=
      at?_of_mem_childSites hs (List.mem_of_find?_eq_some hb)
    simp only [Option.map_some, membersOf_eq_walk hb', mapM_eq_ok_iff,
      List.forall₂_map_left_iff] at h
    exact h

theorem filter_filter_isGroup {p : SyntaxTree → Bool} (hp : ∀ t, p t → t.isGroup = false)
    (l : List Site) : (l.filter (!·.2.isGroup)).filter (p ·.2) = l.filter (p ·.2) := by
  rw [List.filter_filter]
  refine List.filter_congr fun s _ ↦ ?_
  cases h : p s.2 with
  | false => rfl
  | true => rw [hp _ h]; rfl

theorem isGroup_of_declaresFields (t : SyntaxTree) (h : t.declaresFields) : t.isGroup = false :=
  isGroup_eq_false fun hg ↦ by simp [declaresFields, hg] at h

theorem isGroup_of_declaresMethod (t : SyntaxTree) (h : t.declaresMethod) : t.isGroup = false :=
  isGroup_eq_false fun hg ↦ by simp [declaresMethod, hg] at h

theorem isGroup_of_declaresConstant (t : SyntaxTree) (h : t.declaresConstant) :
    t.isGroup = false :=
  isGroup_eq_false fun hg ↦ by simp [declaresConstant, hg] at h

theorem isField_of_members (hs : root.at? s.1 = some s.2) (h : s.2.members src = .ok ms) :
    List.Forall₂ (fun p f ↦ IsField src (root.nodeBefore? p.1.1) p.1.2 p.2 f) (fieldSites s)
      (ms.flatMap Member.fields?) := by
  rw [fieldSites, ← filter_filter_isGroup isGroup_of_declaresFields]
  refine forall₂_filter_flatMap (member_of_members hs h) fun c m hm ↦ ?_
  cases adds_of_member hm with
  | fields hr h =>
    rw [if_pos (by simp [declaresFields, hr]), List.forall₂_map_left_iff]
    exact isField_of_fields h
  | method hr | constant hr => simp [declaresFields, hr, Member.fields?]
  | nothing hr => rcases hr with hr | hr <;> simp [declaresFields, hr, Member.fields?]

theorem isMethod_of_members (hs : root.at? s.1 = some s.2) (h : s.2.members src = .ok ms) :
    List.Forall₂ (fun c m ↦ IsMethod src (root.nodeBefore? c.1) c.2 m) (methodSites s)
      (ms.filterMap Member.method?) := by
  rw [methodSites, ← filter_filter_isGroup isGroup_of_declaresMethod]
  refine forall₂_filter_filterMap (member_of_members hs h) fun c m hm ↦ ?_
  cases adds_of_member hm with
  | @method k m hr h =>
    rw [if_pos (by cases k <;> simp [declaresMethod, hr])]
    exact ⟨m, rfl, isMethod_of_method (by simp [hr]) h⟩
  | fields hr | constant hr => simp [declaresMethod, hr, Member.method?]
  | nothing hr => rcases hr with hr | hr <;> simp [declaresMethod, hr, Member.method?]

theorem name_of_members (hs : root.at? s.1 = some s.2) (h : s.2.members src = .ok ms) :
    List.Forall₂ (fun c n ↦ c.2.fieldString src "name" = .ok n) (constantSites s)
      (ms.filterMap Member.constant?) := by
  rw [constantSites, ← filter_filter_isGroup isGroup_of_declaresConstant]
  refine forall₂_filter_filterMap (member_of_members hs h) fun c m hm ↦ ?_
  cases adds_of_member hm with
  | @constant n hr h =>
    rw [if_pos (by simp [declaresConstant, hr])]
    exact ⟨n, rfl, h⟩
  | fields hr | method hr => simp [declaresConstant, hr, Member.constant?]
  | nothing hr => rcases hr with hr | hr <;> simp [declaresConstant, hr, Member.constant?]

/-- The type is read off its node in a tree, and all that it declares off the nodes that declare
it. -/
structure IsType (src : List Char) (root : SyntaxTree) (s : Site) (d : TypeDecl) : Prop where
  name : s.2.fieldString src "name" = .ok d.name
  keyword : s.2.typeKeyword? = some d.keyword
  typeParameters : nonEmpty? <$> s.2.fieldString src "type_parameters" = .ok d.typeParameters
  header : s.2.header src (root.nodeBefore? s.1) d.name s.2.line = .ok d.toHeader
  superclass : s.2.superclass? src = .ok d.superclass
  interfaces : s.2.interfaces src = .ok d.interfaces
  constants : List.Forall₂ (fun c n ↦ c.2.fieldString src "name" = .ok n) (constantSites s)
    d.constants
  fields : List.Forall₂ (fun p f ↦ IsField src (root.nodeBefore? p.1.1) p.1.2 p.2 f)
    (fieldSites s) d.fields
  methods : List.Forall₂ (fun c m ↦ IsMethod src (root.nodeBefore? c.1) c.2 m) (methodSites s)
    d.methods

theorem isType_of_typeDecl {k : String} {d : TypeDecl} (hs : root.at? s.1 = some s.2)
    (hk : s.2.typeKeyword? = some k)
    (h : s.2.typeDecl src (root.nodeBefore? s.1) k = .ok d) : IsType src root s d := by
  simp only [typeDecl, bind_eq_ok_iff] at h
  obtain ⟨n, hn, tp, htp, hd, hh, sc, hsc, is, his, ms, hms, h⟩ := h
  cases Except.ok.inj h
  obtain rfl := name_of_header hh
  exact ⟨hn, hk, htp, hh, hsc, his, name_of_members hs hms, isField_of_members hs hms,
    isMethod_of_members hs hms⟩

/-- The types of an outline, and all that they declare, are those that the tree declares. -/
theorem isType_of_ofTree {src : String} {path : Option String} {u : CompilationUnit}
    (h : CompilationUnit.ofTree src root path = .ok u) :
    List.Forall₂ (IsType src.toList root) root.typeSites u.types := by
  simp only [CompilationUnit.ofTree, bind_eq_ok_iff] at h
  obtain ⟨_, _, _, _, ts, hts, h⟩ := h
  cases Except.ok.inj h
  have hroot : root.at? [] = some root := rfl
  rw [← nodeBefore?_zero root [], withPrevious_eq_sitesFrom hroot List.drop_zero,
    filterMapM_eq_mapM, map_eq_ok_iff] at hts
  obtain ⟨os, hos, rfl⟩ := hts
  rw [mapM_eq_ok_iff, List.forall₂_map_left_iff] at hos
  have hat : ∀ c ∈ childSites ([], root), root.at? c.1 = some c.2 :=
    fun c hc ↦ at?_of_mem_childSites hroot hc
  refine forall₂_filter_filterMap ((List.forall₂_and_left _ _).2 ⟨hat, hos⟩) fun c o hc ↦ ?_
  obtain ⟨hc, ho⟩ := hc
  cases hk : c.2.typeKeyword? with
  | none => simpa [hk, pure, Except.pure] using ho.symm
  | some k =>
    rw [hk] at ho
    obtain ⟨d, hd, rfl⟩ := map_eq_ok_iff.1 ho
    exact ⟨d, rfl, isType_of_typeDecl hc hk hd⟩

end SyntaxTree

end JavaOutline
