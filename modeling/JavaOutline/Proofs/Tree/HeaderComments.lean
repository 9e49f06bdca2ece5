import JavaOutline.Proofs.Tree.Boundaries

/-! # Comments inside the header of a declaration

The modifiers of a declaration, the exceptions of a method and the clauses of interfaces are read
from all the children of their nodes; only annotations are left out of the modifiers.  So a comment
that stands between two modifiers is read as a modifier, and one between two types as a type.

What each list becomes when the comments are taken out of the tree is known exactly: the items that
were read from comments are gone, and the list is the same only if there was none.  The name of a
parameter changes only if a comment fills the field of the name, and its type only if a comment
fills one of the fields of the type or the type was read from a comment. -/

namespace JavaOutline

open Text

namespace SyntaxTree

variable {src : List Char}

/-! ## Taking the comments out of headers -/

def isComment (t : SyntaxTree) : Bool := t.kind == "block_comment" || t.kind == "line_comment"

/-- The kinds of the nodes that headers consist of. -/
def isHeaderKind (kind : String) : Bool :=
  ["modifiers", "throws", "super_interfaces", "extends_interfaces", "type_list",
    "formal_parameter", "spread_parameter"].contains kind

mutual

/-- The tree without the comments that are children of a node in a header. -/
def uncommented : SyntaxTree → SyntaxTree
  | .node l cs => .node l (uncommentedIn (isHeaderKind l.kind) cs)

/-- The children of a node, without comments if it belongs to a header. -/
def uncommentedIn (header : Bool) : List SyntaxTree → List SyntaxTree
  | [] => []
  | c :: cs =>
    if header && c.isComment then uncommentedIn header cs
    else c.uncommented :: uncommentedIn header cs

end

theorem uncommentedIn_eq (header : Bool) (cs : List SyntaxTree) :
    uncommentedIn header cs =
      (cs.filter fun c ↦ !(header && c.isComment)).map uncommented := by
  induction cs with
  | nil => rw [uncommentedIn, List.filter_nil, List.map_nil]
  | cons c cs ih =>
    rw [uncommentedIn, ih]
    cases h : header && c.isComment with
    | true => rw [if_pos rfl, List.filter_cons_of_neg (by rw [h]; decide)]
    | false =>
      rw [if_neg Bool.false_ne_true, List.filter_cons_of_pos (by rw [h]; decide), List.map_cons]

@[simp] theorem label_uncommented (t : SyntaxTree) : t.uncommented.label = t.label := by
  cases t with
  | node l cs => rw [uncommented, label_node, label_node]

@[simp] theorem kind_uncommented (t : SyntaxTree) : t.uncommented.kind = t.kind := by
  rw [kind, kind, label_uncommented]

theorem children_uncommented (t : SyntaxTree) :
    t.uncommented.children = uncommentedIn (isHeaderKind t.kind) t.children := by
  cases t with
  | node l cs => rw [uncommented, children_node, children_node]; rfl

theorem Fits.uncommented {t : SyntaxTree} (h : Fits src t) : Fits src t.uncommented := by
  induction h with
  | node hstart hstop _ ih =>
    rw [SyntaxTree.uncommented, uncommentedIn_eq]
    refine .node hstart hstop fun c hc ↦ ?_
    obtain ⟨d, hd, rfl⟩ := List.mem_map.1 hc
    exact ih d (List.mem_of_mem_filter hd)

theorem string_uncommented (src : List Char) (t : SyntaxTree) :
    t.uncommented.string src = t.string src := string_congr (label_uncommented t)

/-- A test that looks at nodes from outside and finds no comment. -/
structure IgnoresComments (t : SyntaxTree) (q : SyntaxTree → Bool) : Prop where
  uncommented : ∀ c, q c.uncommented = q c
  comment : ∀ c ∈ t.children, isHeaderKind t.kind → c.isComment → q c = false

variable {t : SyntaxTree} {q : SyntaxTree → Bool}

theorem filter_uncommented (h : IgnoresComments t q) :
    t.uncommented.children.filter q = (t.children.filter q).map uncommented := by
  have hq : q ∘ uncommented = q := funext h.uncommented
  rw [children_uncommented, uncommentedIn_eq, List.filter_map, hq, List.filter_filter]
  refine congrArg (List.map uncommented) (List.filter_congr fun c hc ↦ ?_)
  cases hh : isHeaderKind t.kind <;> cases hcc : c.isComment <;> simp
  exact h.comment c hc hh hcc

theorem find?_uncommented (h : IgnoresComments t q) :
    t.uncommented.children.find? q = (t.children.find? q).map uncommented := by
  rw [← List.head?_filter, filter_uncommented h, List.head?_map, List.head?_filter]

/-- A test of the kind that finds no comment. -/
structure TestsKind (q : SyntaxTree → Bool) : Prop where
  congr : ∀ c c' : SyntaxTree, c.kind = c'.kind → q c = q c'
  comment : ∀ c : SyntaxTree, c.isComment → q c = false

theorem TestsKind.ignoresComments (h : TestsKind q) (t : SyntaxTree) : IgnoresComments t q :=
  ⟨fun c ↦ h.congr _ _ (kind_uncommented c), fun c _ _ hc ↦ h.comment c hc⟩

theorem kind_of_isComment (h : t.isComment) :
    t.kind = "block_comment" ∨ t.kind = "line_comment" := by
  simpa [isComment] using h

theorem testsKind_kind {k : String} (h : k ≠ "block_comment" ∧ k ≠ "line_comment") :
    TestsKind (·.kind == k) := by
  refine ⟨fun c c' hc ↦ by rw [hc], fun c hc ↦ ?_⟩
  rcases kind_of_isComment hc with hc | hc <;> rw [hc, beq_eq_false_iff_ne]
  · exact h.1.symm
  · exact h.2.symm

theorem testsKind_isParameter : TestsKind isParameter := by
  refine ⟨fun c c' hc ↦ by rw [isParameter, isParameter, hc], fun c hc ↦ ?_⟩
  rcases kind_of_isComment hc with hc | hc <;> rw [isParameter, hc] <;> rfl

theorem testsKind_isType : TestsKind (·.typeKeyword?.isSome) := by
  refine ⟨fun c c' hc ↦ by rw [typeKeyword?, typeKeyword?, hc], fun c hc ↦ ?_⟩
  rcases kind_of_isComment hc with hc | hc <;> rw [typeKeyword?, hc] <;> rfl

theorem role_congr {c c' : SyntaxTree} (h : c.kind = c'.kind) : c.role = c'.role := by
  rw [role, role, h]

theorem role_of_isComment (h : t.isComment) : t.role = .passed := by
  rcases kind_of_isComment h with h | h <;> rw [role, h] <;> rfl

theorem testsKind_declaresFields : TestsKind declaresFields :=
  ⟨fun c c' hc ↦ by rw [declaresFields, declaresFields, role_congr hc],
    fun c hc ↦ by rw [declaresFields, role_of_isComment hc]; rfl⟩

theorem testsKind_declaresMethod : TestsKind declaresMethod :=
  ⟨fun c c' hc ↦ by simp only [declaresMethod, role_congr hc],
    fun c hc ↦ by simp [declaresMethod, role_of_isComment hc]⟩

/-- Outside of headers nothing is taken out. -/
theorem ignoresComments_of_not_isHeaderKind (ht : isHeaderKind t.kind = false)
    (h : ∀ c : SyntaxTree, q c.uncommented = q c) : IgnoresComments t q :=
  ⟨h, fun _ _ hh ↦ absurd hh (by simp [ht])⟩

/-! ## The nodes that lists are read from -/

/-- The nodes that the modifiers of a declaration are read from. -/
def modifierNodes (t : SyntaxTree) : List SyntaxTree :=
  ((t.childOfKind? "modifiers").map (·.children.filter (!annotates ·))).getD []

/-- The nodes that the exceptions of a method are read from. -/
def exceptionNodes (t : SyntaxTree) : List SyntaxTree :=
  ((t.childOfKind? "throws").map namedChildren).getD []

/-- The nodes that a clause of interfaces is read from. -/
def clauseNodes (t : SyntaxTree) : List SyntaxTree :=
  ((t.namedChildren.find? (·.kind == "type_list")).getD t).namedChildren

def isClause (t : SyntaxTree) : Bool :=
  t.kind == "super_interfaces" || t.kind == "extends_interfaces"

/-- The nodes that the interfaces of a type are read from. -/
def interfaceNodes (t : SyntaxTree) : List SyntaxTree :=
  (t.children.filter isClause).flatMap clauseNodes

theorem modifiers_eq_mapM (src : List Char) (t : SyntaxTree) :
    t.modifiers src = t.modifierNodes.mapM (string src) := by
  rw [modifiers, modifierNodes]
  cases t.childOfKind? "modifiers" <;> rfl

theorem exceptions_eq_mapM (src : List Char) (t : SyntaxTree) :
    t.exceptions src = t.exceptionNodes.mapM (string src) := by
  rw [exceptions, exceptionNodes]
  cases t.childOfKind? "throws" <;> rfl

theorem flatten_mapM {f : SyntaxTree → Outlined String} (g : SyntaxTree → List SyntaxTree)
    (ts : List SyntaxTree) :
    List.flatten <$> ts.mapM (fun t ↦ (g t).mapM f) = (ts.flatMap g).mapM f := by
  induction ts with
  | nil => rfl
  | cons t ts ih =>
    rw [List.mapM_cons, List.flatMap_cons, List.mapM_append, ← ih]
    simp only [map_bind, map_pure, bind_map_left, List.flatten_cons]

theorem interfaces_eq_mapM (src : List Char) (t : SyntaxTree) :
    t.interfaces src = t.interfaceNodes.mapM (string src) := flatten_mapM clauseNodes _

/-- In a header all comments are taken out. -/
theorem filter_uncommented_of_isHeaderKind (ht : isHeaderKind t.kind)
    (h : ∀ c : SyntaxTree, q c.uncommented = q c) :
    t.uncommented.children.filter q =
      ((t.children.filter q).filter (!·.isComment)).map uncommented := by
  have hq : q ∘ uncommented = q := funext h
  rw [children_uncommented, uncommentedIn_eq, List.filter_map, hq, List.filter_filter,
    List.filter_filter]
  refine congrArg (List.map uncommented) (List.filter_congr fun c _ ↦ ?_)
  rw [ht, Bool.true_and, Bool.and_comm]

theorem namedChildren_uncommented (ht : isHeaderKind t.kind) :
    t.uncommented.namedChildren =
      (t.namedChildren.filter (!·.isComment)).map uncommented :=
  filter_uncommented_of_isHeaderKind ht fun c ↦ by rw [label_uncommented]

/-- Those of the named children that are looked for stay. -/
theorem filter_namedChildren_uncommented (h : IgnoresComments t q) :
    t.uncommented.namedChildren.filter q = (t.namedChildren.filter q).map uncommented := by
  have hn : IgnoresComments t fun c ↦ q c && c.label.named :=
    ⟨fun c ↦ by rw [h.uncommented, label_uncommented],
      fun c hc hh hcc ↦ by rw [h.comment c hc hh hcc, Bool.false_and]⟩
  rw [namedChildren, namedChildren, List.filter_filter, List.filter_filter, filter_uncommented hn]

theorem kind_of_childOfKind? {k : String} {c : SyntaxTree} (h : t.childOfKind? k = some c) :
    c.kind = k := by simpa using List.find?_some h

theorem childOfKind?_uncommented (t : SyntaxTree) {k : String}
    (h : k ≠ "block_comment" ∧ k ≠ "line_comment") :
    t.uncommented.childOfKind? k = (t.childOfKind? k).map uncommented :=
  find?_uncommented ((testsKind_kind h).ignoresComments t)

/-! The nodes left are those that are no comments. -/

theorem modifierNodes_uncommented (t : SyntaxTree) :
    t.uncommented.modifierNodes =
      (t.modifierNodes.filter (!·.isComment)).map uncommented := by
  rw [modifierNodes, modifierNodes, childOfKind?_uncommented t (by decide)]
  cases h : t.childOfKind? "modifiers" with
  | none => rfl
  | some m =>
    refine filter_uncommented_of_isHeaderKind ?_ fun c ↦ by rw [annotates, kind_uncommented]; rfl
    rw [kind_of_childOfKind? h]
    rfl

theorem exceptionNodes_uncommented (t : SyntaxTree) :
    t.uncommented.exceptionNodes =
      (t.exceptionNodes.filter (!·.isComment)).map uncommented := by
  rw [exceptionNodes, exceptionNodes, childOfKind?_uncommented t (by decide)]
  cases h : t.childOfKind? "throws" with
  | none => rfl
  | some e =>
    refine namedChildren_uncommented ?_
    rw [kind_of_childOfKind? h]
    rfl

theorem isHeaderKind_of_isClause (h : t.isClause) : isHeaderKind t.kind := by
  rw [isClause, Bool.or_eq_true, beq_iff_eq, beq_iff_eq] at h
  rcases h with h | h <;> rw [h] <;> rfl

theorem clauseNodes_uncommented (h : t.isClause) :
    t.uncommented.clauseNodes = (t.clauseNodes.filter (!·.isComment)).map uncommented := by
  have hl := filter_namedChildren_uncommented
    ((testsKind_kind (k := "type_list") (by decide)).ignoresComments t)
  rw [clauseNodes, clauseNodes, ← List.head?_filter, hl, List.head?_map, List.head?_filter]
  cases hl : t.namedChildren.find? (·.kind == "type_list") with
  | none => exact namedChildren_uncommented (isHeaderKind_of_isClause h)
  | some l =>
    refine namedChildren_uncommented ?_
    have hk : l.kind = "type_list" := by simpa using List.find?_some hl
    show isHeaderKind l.kind
    rw [hk]
    rfl

theorem interfaceNodes_uncommented (t : SyntaxTree) :
    t.uncommented.interfaceNodes =
      (t.interfaceNodes.filter (!·.isComment)).map uncommented := by
  have hc : TestsKind isClause := by
    refine ⟨fun c c' hc ↦ by rw [isClause, isClause, hc], fun c hc ↦ ?_⟩
    rcases kind_of_isComment hc with hc | hc <;> rw [isClause, hc] <;> rfl
  rw [interfaceNodes, interfaceNodes, filter_uncommented (hc.ignoresComments t), List.flatMap_map,
    List.filter_flatMap, List.map_flatMap]
  exact List.flatMap_congr fun c hc ↦ clauseNodes_uncommented (List.mem_filter.1 hc).2

/-! ## The lists that are read -/

/-- The list that is read from some nodes, and the one that is read without the comments among them:
the items read from comments are gone, and if there were any the lists differ. -/
structure LosesComments (ns : List SyntaxTree) (l l' : List String) : Prop where
  sublist : l'.Sublist l
  eq_iff : l' = l ↔ ∀ n ∈ ns, n.isComment = false

theorem losesComments_of_mapM {ns : List SyntaxTree} {l l' : List String}
    (h : ns.mapM (string src) = .ok l)
    (h' : ((ns.filter (!·.isComment)).map uncommented).mapM (string src) = .ok l') :
    LosesComments ns l l' := by
  simp only [mapM_eq_ok_iff, List.forall₂_map_left_iff, string_uncommented] at h h'
  induction h generalizing l' with
  | nil =>
    cases h'
    exact ⟨.slnil, by simp⟩
  | @cons n s ns l hn _ ih =>
    cases hc : n.isComment with
    | true =>
      rw [List.filter_cons_of_neg (by simp [hc])] at h'
      obtain ⟨hs, _⟩ := ih h'
      refine ⟨hs.cons s, fun he ↦ ?_, fun hall ↦ ?_⟩
      · have hlen := hs.length_le
        rw [he, List.length_cons] at hlen
        omega
      · exact absurd (hall n List.mem_cons_self) (by simp [hc])
    | false =>
      rw [List.filter_cons_of_pos (by simp [hc])] at h'
      obtain ⟨s', r, hn', hr, rfl⟩ := List.forall₂_cons_left_iff.1 h'
      cases hn.symm.trans hn'
      obtain ⟨hs, hiff⟩ := ih hr
      exact ⟨hs.cons_cons s, by simp [hiff, hc]⟩

theorem losesComments_modifiers {l l' : List String} (h : t.modifiers src = .ok l)
    (h' : t.uncommented.modifiers src = .ok l') : LosesComments t.modifierNodes l l' := by
  rw [modifiers_eq_mapM] at h h'
  exact losesComments_of_mapM h (modifierNodes_uncommented t ▸ h')

theorem losesComments_exceptions {l l' : List String} (h : t.exceptions src = .ok l)
    (h' : t.uncommented.exceptions src = .ok l') : LosesComments t.exceptionNodes l l' := by
  rw [exceptions_eq_mapM] at h h'
  exact losesComments_of_mapM h (exceptionNodes_uncommented t ▸ h')

theorem losesComments_interfaces {l l' : List String} (h : t.interfaces src = .ok l)
    (h' : t.uncommented.interfaces src = .ok l') : LosesComments t.interfaceNodes l l' := by
  rw [interfaces_eq_mapM] at h h'
  exact losesComments_of_mapM h (interfaceNodes_uncommented t ▸ h')

/-! ## Parameters -/

theorem fieldChild?_uncommented {f : String}
    (h : ∀ c ∈ t.children, isHeaderKind t.kind → c.isComment → c.label.field ≠ some f) :
    t.uncommented.fieldChild? f = (t.fieldChild? f).map uncommented :=
  find?_uncommented ⟨fun c ↦ by rw [label_uncommented],
    fun c hc hh hcc ↦ by simpa using h c hc hh hcc⟩

theorem stringD_map_uncommented (src : List Char) (o : Option SyntaxTree) :
    stringD src (o.map uncommented) = stringD src o :=
  stringD_congr (by cases o <;> simp)

theorem fieldString_uncommented {f : String}
    (h : ∀ c ∈ t.children, c.isComment → c.label.field ≠ some f) :
    t.uncommented.fieldString src f = t.fieldString src f := by
  rw [fieldString, fieldString, fieldChild?_uncommented fun c hc _ ↦ h c hc,
    stringD_map_uncommented]

theorem parameterName?_uncommented
    (h : ∀ c ∈ t.children, c.isComment → c.label.field ≠ some "name") :
    t.uncommented.parameterName? = t.parameterName?.map uncommented := by
  rw [parameterName?, parameterName?, kind_uncommented]
  split
  · have hd := filter_namedChildren_uncommented
      ((testsKind_kind (k := "variable_declarator") (by decide)).ignoresComments t)
    rw [hd, List.getLast?_map]
    cases hl : (t.namedChildren.filter (·.kind == "variable_declarator")).getLast? with
    | none => rfl
    | some d =>
      have hk : d.kind = "variable_declarator" := by
        simpa using (List.mem_filter.1 (List.mem_of_getLast? hl)).2
      exact fieldChild?_uncommented fun c _ hh ↦ by rw [hk] at hh; exact absurd hh (by decide)
  · exact fieldChild?_uncommented fun c hc _ ↦ h c hc

/-- A type that has been found is kept. -/
theorem type_of_spreadParts {cs : List SyntaxTree} {type name : String} {parts : String × String}
    (hn : type ≠ "") (h : spreadParts src cs (type, name) = .ok parts) : parts.1 = type := by
  induction cs generalizing name with
  | nil => exact congrArg Prod.fst (Except.ok.inj h).symm
  | cons c cs ih =>
    rw [spreadParts] at h
    split at h
    · obtain ⟨n, _, h⟩ := bind_eq_ok_iff.1 h
      exact ih h
    · rw [if_neg fun hc ↦ hn (by simpa using hc.2)] at h
      exact ih h

/-- The type behind which the dots stand is found among the nodes that are no comments as well,
unless it was read from a comment. -/
theorem type_of_spreadParts_uncommented {cs : List SyntaxTree} {type n n' : String}
    {parts parts' : String × String} (h : spreadParts src cs (type, n) = .ok parts)
    (h' : spreadParts src ((cs.filter (!·.isComment)).map uncommented) (type, n') = .ok parts')
    (hc : ∀ c ∈ cs, c.isComment → c.string src = .ok parts.1 → parts.1 = "") :
    parts'.1 = parts.1 := by
  induction cs generalizing type n n' with
  | nil =>
    cases Except.ok.inj h
    cases Except.ok.inj h'
    rfl
  | cons c cs ih =>
    obtain ⟨hcc, hcs⟩ := List.forall_mem_cons.1 hc
    rw [spreadParts] at h
    by_cases hcom : c.isComment
    · rw [List.filter_cons_of_neg (by simp [hcom])] at h'
      have hk : c.kind ≠ "variable_declarator" := fun hk ↦ by simp [isComment, hk] at hcom
      rw [if_neg hk] at h
      split at h
      · next ht =>
        obtain ⟨s, hs, h⟩ := bind_eq_ok_iff.1 h
        have hs' : s = type := by
          by_contra hne
          have hne' : s ≠ "" := fun he ↦ hne (he.trans (String.isEmpty_iff.1 ht.2).symm)
          have hp : parts.1 = s := type_of_spreadParts hne' h
          exact hne' (hp.symm.trans (hcc hcom (hs.trans (congrArg Except.ok hp.symm))))
        exact ih (hs' ▸ h) h' hcs
      · exact ih h h' hcs
    · rw [List.filter_cons_of_pos (by simpa using hcom), List.map_cons, spreadParts,
        kind_uncommented, string_uncommented] at h'
      split at h
      · next hk =>
        rw [if_pos hk] at h'
        obtain ⟨m, _, h⟩ := bind_eq_ok_iff.1 h
        obtain ⟨m', _, h'⟩ := bind_eq_ok_iff.1 h'
        exact ih h h' hcs
      · next hk =>
        rw [if_neg hk] at h'
        split at h
        · next ht =>
          rw [if_pos ht] at h'
          obtain ⟨s, hs, h⟩ := bind_eq_ok_iff.1 h
          obtain ⟨s', hs', h'⟩ := bind_eq_ok_iff.1 h'
          cases hs.symm.trans hs'
          exact ih h h' hcs
        · next ht =>
          rw [if_neg ht] at h'
          exact ih h h' hcs

/-- A parameter, and the one that is read without the comments. -/
structure ParameterLoses (src : List Char) (t : SyntaxTree) (p p' : Parameter) : Prop where
  modifiers : LosesComments t.modifierNodes p.modifiers p'.modifiers
  name : (∀ c ∈ t.children, c.isComment → c.label.field ≠ some "name") → p'.name = p.name
  type : (∀ c ∈ t.children, c.isComment →
      c.label.field ≠ some "type" ∧ c.label.field ≠ some "dimensions") →
    (t.kind = "spread_parameter" →
      ∀ c ∈ t.namedChildren, c.isComment → c.string src = .ok p.type → p.type = "") →
    p'.type = p.type

theorem parameterLoses {p p' : Parameter} (ht : t.isParameter) (h : IsParameter src t p)
    (h' : IsParameter src t.uncommented p') : ParameterLoses src t p p' := by
  have hk := kind_uncommented t
  refine ⟨losesComments_modifiers h.modifiers h'.modifiers, fun hc ↦ ?_, fun hc hs ↦ ?_⟩
  · have hn := h'.name
    rw [parameterName?_uncommented hc, stringD_map_uncommented, h.name] at hn
    exact (Except.ok.inj hn).symm
  · rw [isParameter, Bool.or_eq_true, beq_iff_eq, beq_iff_eq] at ht
    rcases ht with ht | ht
    · have hty := h'.type (hk.trans ht)
      rw [typeString, fieldString_uncommented fun c hm hcc ↦ (hc c hm hcc).1,
        fieldString_uncommented fun c hm hcc ↦ (hc c hm hcc).2, ← typeString, h.type ht] at hty
      exact (Except.ok.inj hty).symm
    · obtain ⟨n, hn⟩ := h.spread ht
      obtain ⟨n', hn'⟩ := h'.spread (hk.trans ht)
      rw [namedChildren_uncommented (by rw [ht]; rfl)] at hn'
      exact type_of_spreadParts_uncommented hn hn' (hs ht)

/-! ## The nodes that declare something

They are the same in both trees, up to the comments inside of them. -/

/-- The second node is the first one without comments. -/
def Uncomments (s s' : Site) : Prop := s'.2 = s.2.uncommented

theorem forall₂_uncomments_iff {ss ss' : List Site} :
    List.Forall₂ Uncomments ss ss' ↔
      ss'.map Prod.snd = (ss.map Prod.snd).map uncommented := by
  rw [← List.forall₂_eq_eq_eq, List.forall₂_map_left_iff, List.forall₂_map_right_iff,
    List.forall₂_map_right_iff]
  exact ⟨fun h ↦ h.flip, fun h ↦ h.flip⟩

theorem map_snd_filter (ss : List Site) (q : SyntaxTree → Bool) :
    (ss.filter (q ·.2)).map Prod.snd = (ss.map Prod.snd).filter q := by
  rw [List.filter_map]
  rfl

mutual

theorem walkNode_uncommented (π π' : Place) (t : SyntaxTree) :
    (walkNode π' t.uncommented).map Prod.snd =
      ((walkNode π t).map Prod.snd).map uncommented :=
  match t with
  | .node l cs => by
    rw [uncommented, walkNode, walkNode]
    split
    · next hl =>
      have hh : isHeaderKind l.kind = false := by rw [hl]; rfl
      simp only [List.map_cons, uncommented, hh]
      rw [walkFrom_uncommented π π' 0 0 cs]
    · simp only [List.map_cons, List.map_nil, uncommented]

theorem walkFrom_uncommented (π π' : Place) (i i' : Nat) (cs : List SyntaxTree) :
    (walkFrom π' i' (uncommentedIn false cs)).map Prod.snd =
      ((walkFrom π i cs).map Prod.snd).map uncommented :=
  match cs with
  | [] => rfl
  | c :: cs => by
    rw [uncommentedIn, if_neg (by simp), walkFrom, walkFrom, List.map_append, List.map_append,
      List.map_append, walkNode_uncommented (i :: π) (i' :: π') c,
      walkFrom_uncommented π π' (i + 1) (i' + 1) cs]

end

theorem walkNode_of_isComment {c : SyntaxTree} (h : c.isComment) (π : Place) :
    walkNode π c = [(π, c)] := by
  cases c with
  | node l cs =>
    rw [walkNode, if_neg]
    rcases kind_of_isComment h with hk | hk <;> rw [kind, label_node] at hk <;> simp [hk]

/-- What is looked for in a body is met by the walk in both trees. -/
theorem filter_walkFrom_uncommentedIn (hq : TestsKind q) (header : Bool) (π π' : Place)
    (i i' : Nat) (cs : List SyntaxTree) :
    ((walkFrom π' i' (uncommentedIn header cs)).map Prod.snd).filter q =
      (((walkFrom π i cs).map Prod.snd).filter q).map uncommented := by
  have hu : q ∘ uncommented = q := funext fun c ↦ hq.congr _ _ (kind_uncommented c)
  induction cs generalizing i i' with
  | nil =>
    rw [uncommentedIn, walkFrom, walkFrom]
    rfl
  | cons c cs ih =>
    rw [uncommentedIn, walkFrom]
    by_cases hc : header && c.isComment
    · obtain ⟨_, hcc⟩ := Bool.and_eq_true_iff.1 hc
      rw [if_pos hc, walkNode_of_isComment hcc, List.singleton_append, List.map_cons,
        List.filter_cons_of_neg (by simp [hq.comment c hcc]), ih (i + 1) i']
    · rw [if_neg hc, walkFrom, List.map_append, List.map_append, List.filter_append,
        List.filter_append, List.map_append, ih (i + 1) (i' + 1),
        walkNode_uncommented (i :: π) (i' :: π') c, List.filter_map, hu]

variable {s s' : Site}

theorem bodySites_uncommented (hq : TestsKind q) (hs : Uncomments s s')
    (hk : isHeaderKind s.2.kind = false) :
    List.Forall₂ Uncomments ((bodySites s).filter (q ·.2)) ((bodySites s').filter (q ·.2)) := by
  have hb : (bodySite? s').map Prod.snd = ((bodySite? s).map Prod.snd).map uncommented := by
    rw [← fieldChild?_body, ← fieldChild?_body, hs,
      fieldChild?_uncommented fun _ _ hh ↦ absurd hh (by simp [hk])]
  rw [forall₂_uncomments_iff, map_snd_filter, map_snd_filter, bodySites, bodySites]
  cases h : bodySite? s with
  | none =>
    cases h' : bodySite? s' with
    | none => rfl
    | some b' => simp [h, h'] at hb
  | some b =>
    cases h' : bodySite? s' with
    | none => simp [h, h'] at hb
    | some b' =>
      have hb : b'.2 = b.2.uncommented := by simpa [h, h'] using hb
      simp only [Option.map_some, Option.getD_some, walk, hb, children_uncommented]
      exact filter_walkFrom_uncommentedIn hq _ b.1 b'.1 0 0 _

theorem methodSites_uncommented (hs : Uncomments s s') (hk : isHeaderKind s.2.kind = false) :
    List.Forall₂ Uncomments (methodSites s) (methodSites s') :=
  bodySites_uncommented testsKind_declaresMethod hs hk

/-- What declares something in a body belongs to no header. -/
theorem isHeaderKind_of_role (h : t.role ≠ .passed) : isHeaderKind t.kind = false := by
  rw [role] at h
  split_ifs at h with hf hm hc he hg
  · rcases hf with hf | hf <;> rw [hf] <;> rfl
  · rw [hm]; rfl
  · rw [hc]; rfl
  · rw [he]; rfl
  · rw [hg]; rfl
  · exact absurd rfl h

theorem isHeaderKind_of_isType (h : t.typeKeyword?.isSome) : isHeaderKind t.kind = false := by
  rw [typeKeyword?] at h
  split_ifs at h with hc hi he
  · rw [hc]; rfl
  · rw [hi]; rfl
  · rw [he]; rfl
  · exact absurd h nofun

theorem fieldSites_uncommented (hs : Uncomments s s') (hk : isHeaderKind s.2.kind = false) :
    List.Forall₂ (fun p p' ↦ Uncomments p.1 p'.1) (fieldSites s) (fieldSites s') := by
  have hd := bodySites_uncommented testsKind_declaresFields hs hk
  have hm : ∀ d ∈ (bodySites s).filter (·.2.declaresFields), d.2.declaresFields :=
    fun d hd ↦ (List.mem_filter.1 hd).2
  refine List.rel_flatMap ((List.forall₂_and_left _ _).2 ⟨hm, hd⟩) fun d d' hd ↦ ?_
  obtain ⟨hf, hd⟩ := hd
  have hk : isHeaderKind d.2.kind = false :=
    isHeaderKind_of_role fun hr ↦ by simp [declaresFields, hr] at hf
  have hv : d'.2.fieldChildren "declarator" =
      (d.2.fieldChildren "declarator").map uncommented := by
    rw [hd]
    exact filter_uncommented
      (ignoresComments_of_not_isHeaderKind hk fun c ↦ by rw [label_uncommented])
  rw [hv, List.forall₂_map_left_iff, List.forall₂_map_right_iff, List.forall₂_map_right_iff]
  exact List.forall₂_same.2 fun _ _ ↦ hd

theorem typeSites_uncommented (root : SyntaxTree) :
    List.Forall₂ Uncomments root.typeSites root.uncommented.typeSites := by
  rw [forall₂_uncomments_iff, typeSites, typeSites,
    map_snd_filter _ (·.typeKeyword?.isSome), map_snd_filter _ (·.typeKeyword?.isSome),
    map_snd_childSites, map_snd_childSites]
  exact filter_uncommented (testsKind_isType.ignoresComments root)

theorem parameterNodes_uncommented (hk : isHeaderKind t.kind = false) :
    t.uncommented.parameterNodes = t.parameterNodes.map uncommented := by
  rw [parameterNodes, parameterNodes,
    fieldChild?_uncommented fun _ _ hh ↦ absurd hh (by simp [hk])]
  cases t.fieldChild? "parameters" with
  | none => rfl
  | some ps => exact filter_namedChildren_uncommented (testsKind_isParameter.ignoresComments ps)

/-! ## Methods and types -/

/-- A method, and the one that is read without the comments. -/
structure MethodLoses (src : List Char) (t : SyntaxTree) (m m' : Method) : Prop where
  modifiers : LosesComments t.modifierNodes m.modifiers m'.modifiers
  exceptions : LosesComments t.exceptionNodes m.exceptions m'.exceptions
  parameters : Forall₃ (ParameterLoses src) t.parameterNodes m.parameters m'.parameters

/-- A type, and the one that is read without the comments. -/
structure TypeLoses (src : List Char) (s : Site) (d d' : TypeDecl) : Prop where
  modifiers : LosesComments s.2.modifierNodes d.modifiers d'.modifiers
  interfaces : LosesComments s.2.interfaceNodes d.interfaces d'.interfaces
  fields : Forall₃ (fun p f f' ↦ LosesComments p.1.2.modifierNodes f.modifiers f'.modifiers)
    (fieldSites s) d.fields d'.fields
  methods : Forall₃ (fun c m m' ↦ MethodLoses src c.2 m m') (methodSites s) d.methods d'.methods

theorem losesComments_header {b b' : Option SyntaxTree} {n n' : String} {l l' : Int}
    {h h' : Header} (hh : t.header src b n l = .ok h)
    (hh' : t.uncommented.header src b' n' l' = .ok h') :
    LosesComments t.modifierNodes h.modifiers h'.modifiers := by
  obtain ⟨ms, _, hms, _, rfl⟩ := header_eq_ok_iff.1 hh
  obtain ⟨ms', _, hms', _, rfl⟩ := header_eq_ok_iff.1 hh'
  exact losesComments_modifiers hms hms'

theorem methodLoses {b b' : Option SyntaxTree} {m m' : Method}
    (hk : isHeaderKind t.kind = false) (h : IsMethod src b t m)
    (h' : IsMethod src b' t.uncommented m') : MethodLoses src t m m' := by
  refine ⟨losesComments_header h.header h'.header,
    losesComments_exceptions h.exceptions h'.exceptions, ?_⟩
  have hp : ∀ c ∈ t.parameterNodes, c.isParameter := fun c ↦ isParameter_of_mem_parameterNodes
  have hu : List.Forall₂ (fun c c' ↦ c' = c.uncommented) t.parameterNodes
      t.uncommented.parameterNodes := by
    rw [parameterNodes_uncommented hk, List.forall₂_map_right_iff]
    exact List.forall₂_same.2 fun _ _ ↦ rfl
  refine forall₃_of_forall₂ ((List.forall₂_and_left _ _).2 ⟨hp, h.parameters⟩) hu h'.parameters ?_
  rintro c p _ p' ⟨hc, hp⟩ rfl hp'
  exact parameterLoses hc hp hp'

theorem typeLoses {root root' : SyntaxTree} {d d' : TypeDecl} (hs : Uncomments s s')
    (h : IsType src root s d) (h' : IsType src root' s' d') : TypeLoses src s d d' := by
  have hk : isHeaderKind s.2.kind = false := isHeaderKind_of_isType (by rw [h.keyword]; rfl)
  have hh := h'.header
  have hi := h'.interfaces
  rw [hs] at hh hi
  refine ⟨losesComments_header h.header hh, losesComments_interfaces h.interfaces hi, ?_, ?_⟩
  · refine forall₃_of_forall₂ h.fields (fieldSites_uncommented hs hk) h'.fields ?_
    intro p f p' f' hf hp hf'
    have hf' := hf'.header
    rw [hp] at hf'
    exact losesComments_header hf.header hf'
  · have hm : ∀ c ∈ methodSites s, c.2.declaresMethod := fun c hc ↦ (List.mem_filter.1 hc).2
    refine forall₃_of_forall₂ ((List.forall₂_and_left _ _).2 ⟨hm, h.methods⟩)
      (methodSites_uncommented hs hk) h'.methods ?_
    rintro c m c' m' ⟨hc, hm⟩ hcc hm'
    rw [hcc] at hm'
    exact methodLoses (isHeaderKind_of_role fun hr ↦ by simp [declaresMethod, hr] at hc) hm hm'

/-- What is read from a tree and what is read from it without the comments inside of headers: each
list of modifiers, exceptions or interfaces loses the items that were read from comments, and is the
same only if there were none.  A tree that cuts no character is read without the comments as well.
-/
theorem outline_uncommented {src : String} {root : SyntaxTree} {path : Option String}
    {u : CompilationUnit} (h : CompilationUnit.ofTree src root path = .ok u) :
    (Fits src.toList root → ∃ u', CompilationUnit.ofTree src root.uncommented path = .ok u') ∧
    ∀ u', CompilationUnit.ofTree src root.uncommented path = .ok u' →
      Forall₃ (TypeLoses src.toList) root.typeSites u.types u'.types := by
  constructor
  · intro hfits
    exact exists_ofTree hfits.uncommented path
  · intro u' h'
    exact forall₃_of_forall₂ (isType_of_ofTree h) (typeSites_uncommented root) (isType_of_ofTree h')
      fun _ _ _ _ ht hs ht' ↦ typeLoses hs ht ht'

/-! The text `final/**/static A` has a comment between the modifiers of a class. -/

namespace Commented

def chars : List Char :=
  ['f', 'i', 'n', 'a', 'l', '/', '*', '*', '/', 's', 't', 'a', 't', 'i', 'c', ' ', 'A']

def source : String := String.ofList chars

theorem toList_source : source.toList = chars := String.toList_ofList

def modifiersNode : SyntaxTree :=
  .node { kind := "modifiers", start := 0, stop := 15, row := 0 }
    [.node { kind := "final", named := false, start := 0, stop := 5, row := 0 } [],
      .node { kind := "block_comment", start := 5, stop := 9, row := 0 } [],
      .node { kind := "static", named := false, start := 9, stop := 15, row := 0 } []]

def classNode : SyntaxTree :=
  .node { kind := "class_declaration", start := 0, stop := 17, row := 0 }
    [modifiersNode,
      .node { kind := "identifier", field := some "name", start := 16, stop := 17, row := 0 } []]

def tree : SyntaxTree :=
  .node { kind := "program", start := 0, stop := 17, row := 0 } [classNode]

def outline (modifiers : List String) : CompilationUnit :=
  { types := [{ name := "A", line := 1, modifiers }] }

theorem ofTree_tree :
    CompilationUnit.ofTree source tree none = .ok (outline ["final", "/**/", "static"]) := by
  rw [CompilationUnit.ofTree, toList_source]
  rfl

theorem ofTree_uncommented_tree :
    CompilationUnit.ofTree source tree.uncommented none = .ok (outline ["final", "static"]) := by
  rw [CompilationUnit.ofTree, toList_source]
  rfl

theorem fits_tree : Fits source.toList tree := by
  rw [toList_source]
  have h0 : IsBoundary chars 0 := isBoundary_of_take (k := 0) rfl
  have h5 : IsBoundary chars 5 := isBoundary_of_take (k := 5) rfl
  have h9 : IsBoundary chars 9 := isBoundary_of_take (k := 9) rfl
  have h15 : IsBoundary chars 15 := isBoundary_of_take (k := 15) rfl
  have h16 : IsBoundary chars 16 := isBoundary_of_take (k := 16) rfl
  have h17 : IsBoundary chars 17 := isBoundary_of_take (k := 17) rfl
  have hmodifiers : Fits chars modifiersNode := by
    refine .node h0 h15 (List.forall_mem_cons.2 ⟨.node h0 h5 nofun, ?_⟩)
    refine List.forall_mem_cons.2 ⟨.node h5 h9 nofun, ?_⟩
    exact List.forall_mem_singleton.2 (.node h9 h15 nofun)
  have hclass : Fits chars classNode := by
    refine .node h0 h17 (List.forall_mem_cons.2 ⟨hmodifiers, ?_⟩)
    exact List.forall_mem_singleton.2 (.node h16 h17 nofun)
  exact .node h0 h17 (List.forall_mem_singleton.2 hclass)

end Commented

open Commented

theorem outline_uncommented_tree :
    ∃ u', CompilationUnit.ofTree source tree.uncommented none = .ok u' ∧
      Forall₃ (TypeLoses source.toList) tree.typeSites
        (outline ["final", "/**/", "static"]).types u'.types := by
  obtain ⟨hreturns, hloses⟩ := outline_uncommented ofTree_tree
  obtain ⟨u', hu'⟩ := hreturns fits_tree
  exact ⟨u', hu', hloses u' hu'⟩

/-- A comment between modifiers is read as a modifier. -/
theorem modifiers_uncommented_ne :
    ∃ u u', CompilationUnit.ofTree source tree none = .ok u ∧
      CompilationUnit.ofTree source tree.uncommented none = .ok u' ∧
      u.types.map (·.modifiers) = [["final", "/**/", "static"]] ∧
      u'.types.map (·.modifiers) = [["final", "static"]] :=
  ⟨_, _, ofTree_tree, ofTree_uncommented_tree, rfl, rfl⟩

end SyntaxTree

end JavaOutline
