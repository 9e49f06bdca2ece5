import JavaOutline.Proofs.Tree.Boundaries

/-! # What the outline passes over can be left out

A node that is neither read itself nor stands right before a declaration can be taken out of a tree
without a change to the outline.

There is one exception.  The body of a type is found by its field, the modifiers and the clauses of
interfaces by their kinds, so a single node can be the body and one of these as well.  What the walk
through such a body passes over is then read as a modifier or as an interface. -/

namespace JavaOutline

open Text

namespace SyntaxTree

variable {src : List Char}

variable {p q : Option SyntaxTree}

/-! ## The node before a declaration

It is only looked at from outside. -/

theorem documentation_congr (h : p.map label = q.map label) :
    documentation src p = documentation src q := by
  match p, q with
  | none, none => rfl
  | some (.node l _), some (.node l' _) =>
    obtain rfl : l = l' := Option.some.inj h
    rfl

/-- Documentation is read for fields, methods and constructors. -/
def isDocumented (t : SyntaxTree) : Bool := t.declaresFields || t.declaresMethod

theorem member_congr {t : SyntaxTree} (h : t.isDocumented → p.map label = q.map label) :
    member src (p, t) = member src (q, t) := by
  rw [member_eq, member_eq]
  cases hr : t.role with
  | fields =>
    have hd : documentation src p = documentation src q :=
      documentation_congr (h (by simp [isDocumented, declaresFields, hr]))
    have hf : t.field src p = t.field src q := by
      funext v
      simp only [field, header, hd]
    simp only [fields, hf]
  | method c =>
    have hd : documentation src p = documentation src q :=
      documentation_congr (h (by cases c <;> simp [isDocumented, declaresMethod, hr]))
    simp only [method, header, hd]
  | constant | group | passed => rfl

theorem typeDecl_congr (h : p.map label = q.map label) (t : SyntaxTree) (k : String) :
    t.typeDecl src p k = t.typeDecl src q k := by
  simp only [typeDecl, header, documentation_congr h]

/-! ## Leaving a node out of a body -/

/-- A body without one of the nodes that the walk passes over, where no declaration that has
documentation comes next. -/
inductive Omits : List SyntaxTree → List SyntaxTree → Prop
  | here {t : SyntaxTree} {ts : List SyntaxTree} (ht : t.role = .passed)
      (hn : ∀ n ∈ ts.head?, n.isDocumented = false) : Omits (t :: ts) ts
  | later (t : SyntaxTree) {ts us : List SyntaxTree} (h : Omits ts us) : Omits (t :: ts) (t :: us)
  | inside {l : NodeLabel} {cs ds : List SyntaxTree} (hl : l.kind = "enum_body_declarations")
      (h : Omits cs ds) (ts : List SyntaxTree) : Omits (.node l cs :: ts) (.node l ds :: ts)

/-- Whether a member adds anything to its type. -/
def Member.counts : Member → Bool
  | .nothing => false
  | _ => true

/-- What the members of a body add to its type. -/
def added (src : List Char) (ms : List (Option SyntaxTree × SyntaxTree)) :
    Outlined (List Member) :=
  (·.filter Member.counts) <$> ms.mapM (member src)

theorem added_append (ms ms' : List (Option SyntaxTree × SyntaxTree)) :
    added src (ms ++ ms') = (do
      let a ← added src ms
      let b ← added src ms'
      pure (a ++ b)) := by
  simp only [added, List.mapM_append, map_bind, map_pure, bind_map_left, List.filter_append]

theorem added_passed {t : SyntaxTree} (h : t.role = .passed) : added src [(p, t)] = pure [] := by
  have hm : member src (p, t) = pure .nothing := by rw [member_eq, h]
  rw [added, List.mapM_cons, hm]
  rfl

theorem membersOfNode_of_isGroup {t : SyntaxTree} (h : t.isGroup) :
    membersOfNode p t = membersOf none t.children := by
  cases t with
  | node l cs =>
    rw [membersOfNode, if_pos (by simpa [isGroup, kind] using h), children_node]

theorem membersOfNode_of_not_isGroup {t : SyntaxTree} (h : t.isGroup = false) :
    membersOfNode p t = [(p, t)] := by
  cases t with
  | node l cs => rw [membersOfNode, if_neg (by simpa [isGroup, kind] using h)]

/-- The node before some nodes of a body matters only if the first of these has documentation. -/
theorem added_congr {ts : List SyntaxTree}
    (h : ∀ n ∈ ts.head?, n.isDocumented → p.map label = q.map label) :
    added src (membersOf p ts) = added src (membersOf q ts) := by
  cases ts with
  | nil => rfl
  | cons n ns =>
    rw [membersOf, membersOf, added_append, added_append]
    cases hg : n.isGroup with
    | true => rw [membersOfNode_of_isGroup hg, membersOfNode_of_isGroup hg]
    | false =>
      rw [membersOfNode_of_not_isGroup hg, membersOfNode_of_not_isGroup hg]
      simp only [added, List.mapM_cons, member_congr (h n rfl)]

theorem added_eq_of_omits {ts us : List SyntaxTree} (h : Omits ts us) (p : Option SyntaxTree) :
    added src (membersOf p ts) = added src (membersOf p us) := by
  induction h generalizing p with
  | @here t ts ht hn =>
    rw [membersOf, membersOfNode_of_not_isGroup (isGroup_eq_false (by simp [ht])), added_append,
      added_passed ht]
    simp only [pure_bind, List.nil_append, bind_pure]
    exact added_congr fun n hm hd ↦ absurd (hn n hm) (by simp [hd])
  | later t _ ih => rw [membersOf, membersOf, added_append, added_append, ih]
  | @inside l cs ds hl h ts ih =>
    have hg (cs : List SyntaxTree) : isGroup (.node l cs) := by simp [isGroup, kind, hl]
    rw [membersOf, membersOf, added_append, added_append, membersOfNode_of_isGroup (hg cs),
      membersOfNode_of_isGroup (hg ds), children_node, children_node, ih,
      added_congr (p := some (.node l cs)) (q := some (.node l ds)) fun _ _ _ ↦ rfl]

theorem fits_of_omits {ts us : List SyntaxTree} (h : Omits ts us) (hts : ∀ t ∈ ts, Fits src t) :
    ∀ u ∈ us, Fits src u := by
  induction h with
  | here => exact (List.forall_mem_cons.1 hts).2
  | later t _ ih =>
    obtain ⟨ht, hts⟩ := List.forall_mem_cons.1 hts
    exact List.forall_mem_cons.2 ⟨ht, ih hts⟩
  | inside _ _ ts ih =>
    obtain ⟨⟨hstart, hstop, hcs⟩, hts⟩ := List.forall_mem_cons.1 hts
    exact List.forall_mem_cons.2 ⟨.node hstart hstop (ih hcs), hts⟩

/-! ## A child of a node is exchanged -/

/-- A node with one of its children missing. -/
structure Hole where
  label : NodeLabel
  left : List SyntaxTree
  right : List SyntaxTree

namespace Hole

variable {H : Hole} {t t' : SyntaxTree} {f : SyntaxTree → Bool}

/-- The node with the missing child put in. -/
def fill (H : Hole) (t : SyntaxTree) : SyntaxTree := .node H.label (H.left ++ t :: H.right)

/-- The first child in the field of the body is the missing one. -/
def IsBody (H : Hole) (b : NodeLabel) : Prop :=
  b.field = some "body" ∧ ∀ a ∈ H.left, a.label.field ≠ some "body"

theorem fits_of_fits_fill (h : Fits src (H.fill t)) : Fits src t :=
  h.child (by simp [fill])

theorem fits_fill (h : Fits src (H.fill t)) (ht' : Fits src t') : Fits src (H.fill t') := by
  cases h with
  | node hstart hstop hcs =>
    refine .node hstart hstop fun c hc ↦ ?_
    rcases List.mem_append.1 hc with hc | hc
    · exact hcs c (List.mem_append_left _ hc)
    · rcases List.mem_cons.1 hc with rfl | hc
      · exact ht'
      · exact hcs c (List.mem_append_right _ (List.mem_cons_of_mem _ hc))

theorem find?_fill (h : f t ∨ f t' → ∃ a ∈ H.left, f a) :
    (H.fill t).children.find? f = (H.fill t').children.find? f := by
  simp only [fill, children_node, List.find?_append]
  cases hl : H.left.find? f with
  | some a => rfl
  | none =>
    have hn : ¬(f t ∨ f t') := fun ht ↦ by
      obtain ⟨a, ha, hfa⟩ := h ht
      exact List.find?_eq_none.1 hl a ha hfa
    obtain ⟨ht, ht'⟩ := not_or.1 hn
    rw [List.find?_cons_of_neg ht, List.find?_cons_of_neg ht']

theorem filter_fill (h : ¬f t) (h' : ¬f t') :
    (H.fill t).children.filter f = (H.fill t').children.filter f := by
  simp only [fill, children_node, List.filter_append, List.filter_cons_of_neg h,
    List.filter_cons_of_neg h']

theorem label_children_fill (h : t.label = t'.label) :
    (H.fill t).children.map SyntaxTree.label = (H.fill t').children.map SyntaxTree.label := by
  simp only [fill, children_node, List.map_append, List.map_cons, h]

theorem fieldChild?_fill {b : NodeLabel} (h : H.IsBody b) (cs : List SyntaxTree) :
    (H.fill (.node b cs)).fieldChild? "body" = some (.node b cs) := by
  rw [fieldChild?, fill, children_node, List.find?_append,
    List.find?_eq_none.2 fun a ha ↦ by simpa using h.2 a ha, Option.none_or,
    List.find?_cons_of_pos (by simp [h.1])]

theorem modifiers_fill (hl : t.label = t'.label)
    (h : t.kind = "modifiers" → ∃ a ∈ H.left, a.kind = "modifiers") :
    (H.fill t).modifiers src = (H.fill t').modifiers src := by
  have hf : (H.fill t).childOfKind? "modifiers" = (H.fill t').childOfKind? "modifiers" :=
    find?_fill (by simpa [kind, ← hl] using h)
  rw [modifiers, modifiers, hf]

theorem superclass?_fill {t t' : SyntaxTree} (h : t.label.field = some "body")
    (hl : t.label = t'.label) : (H.fill t).superclass? src = (H.fill t').superclass? src := by
  have hf : (H.fill t).fieldChild? "superclass" = (H.fill t').fieldChild? "superclass" :=
    find?_fill (by simp [← hl, h])
  rw [superclass?, superclass?, hf]

theorem interfaces_fill (hl : t.label = t'.label)
    (h : t.kind ≠ "super_interfaces" ∧ t.kind ≠ "extends_interfaces") :
    (H.fill t).interfaces src = (H.fill t').interfaces src := by
  have hf : ¬(t.kind == "super_interfaces" || t.kind == "extends_interfaces") := by simpa using h
  have hf' : ¬(t'.kind == "super_interfaces" || t'.kind == "extends_interfaces") := by
    simpa [kind, ← hl] using hf
  rw [interfaces, interfaces, filter_fill hf hf']

end Hole

/-! ## A node is left out of the body of a type -/

/-- The members of a type, each with the node before it. -/
def bodyMembers (t : SyntaxTree) : List (Option SyntaxTree × SyntaxTree) :=
  ((t.fieldChild? "body").map (membersOf none ·.children)).getD []

theorem members_eq_mapM (t : SyntaxTree) : t.members src = t.bodyMembers.mapM (member src) := by
  rw [members, bodyMembers]
  cases t.fieldChild? "body" <;> rfl

theorem flatMap_filter_counts {α : Type} {f : Member → List α} (h : f .nothing = [])
    (ms : List Member) : (ms.filter Member.counts).flatMap f = ms.flatMap f := by
  induction ms with
  | nil => rfl
  | cons m ms ih => cases m <;> simp [List.filter_cons, Member.counts, ih, h]

theorem filterMap_filter_counts {α : Type} {f : Member → Option α} (h : f .nothing = none)
    (ms : List Member) : (ms.filter Member.counts).filterMap f = ms.filterMap f := by
  rw [List.filterMap_filter]
  refine List.filterMap_congr fun m _ ↦ ?_
  cases m <;> simp [Member.counts, h]

theorem typeDecl_eq (src : List Char) (p : Option SyntaxTree) (t : SyntaxTree) (k : String) :
    t.typeDecl src p k = (do
      let name ← t.fieldString src "name"
      let typeParameters ← nonEmpty? <$> t.fieldString src "type_parameters"
      let h ← t.header src p name t.line
      let superclass ← t.superclass? src
      let interfaces ← t.interfaces src
      let ms ← added src t.bodyMembers
      pure { h with
        keyword := k, superclass, interfaces, typeParameters
        constants := ms.filterMap Member.constant?
        fields := ms.flatMap Member.fields?
        methods := ms.filterMap Member.method? }) := by
  simp only [typeDecl, members_eq_mapM, added, bind_map_left,
    filterMap_filter_counts (f := Member.constant?) rfl,
    filterMap_filter_counts (f := Member.method?) rfl,
    flatMap_filter_counts (f := Member.fields?) rfl]

/-- The type without one of the nodes that the walk through its body passes over. -/
structure OmitsInBody (H : Hole) (b : NodeLabel) (t t' : SyntaxTree) : Prop where
  isBody : H.IsBody b
  omits : ∃ cs ds, Omits cs ds ∧ t = H.fill (.node b cs) ∧ t' = H.fill (.node b ds)

/-- The body is read as a body only: it is neither the node of the modifiers nor a clause of
interfaces. -/
structure Hole.ReadsBodyOnly (H : Hole) (b : NodeLabel) : Prop where
  modifiers : b.kind = "modifiers" → ∃ a ∈ H.left, a.kind = "modifiers"
  interfaces : b.kind ≠ "super_interfaces" ∧ b.kind ≠ "extends_interfaces"

/-- The parts of a type that may differ if its body, of the given kind, is read as something else
too: its modifiers or its interfaces. -/
structure AgreesBut (kind : String) (d d' : TypeDecl) : Prop where
  modifiers : kind = "modifiers" → d' = { d with modifiers := d'.modifiers }
  interfaces : kind = "super_interfaces" ∨ kind = "extends_interfaces" →
    d' = { d with interfaces := d'.interfaces }

variable {H : Hole} {b : NodeLabel} {t t' : SyntaxTree} {k : String}

namespace OmitsInBody

theorem label_eq (h : OmitsInBody H b t t') : t.label = t'.label := by
  obtain ⟨cs, ds, _, rfl, rfl⟩ := h.omits
  rfl

theorem fits (h : OmitsInBody H b t t') (ht : Fits src t) : Fits src t' := by
  obtain ⟨cs, ds, ho, rfl, rfl⟩ := h.omits
  cases Hole.fits_of_fits_fill ht with
  | node hstart hstop hcs => exact Hole.fits_fill ht (.node hstart hstop (fits_of_omits ho hcs))

theorem fieldString_eq (h : OmitsInBody H b t t') : t.fieldString src = t'.fieldString src := by
  obtain ⟨cs, ds, _, rfl, rfl⟩ := h.omits
  funext f
  have hl : label (.node b cs) = label (.node b ds) := rfl
  exact fieldString_congr (Hole.label_children_fill hl) f

theorem superclass?_eq (h : OmitsInBody H b t t') : t.superclass? src = t'.superclass? src := by
  obtain ⟨cs, ds, _, rfl, rfl⟩ := h.omits
  exact Hole.superclass?_fill h.isBody.1 rfl

theorem modifiers_eq (h : OmitsInBody H b t t')
    (hm : b.kind = "modifiers" → ∃ a ∈ H.left, a.kind = "modifiers") :
    t.modifiers src = t'.modifiers src := by
  obtain ⟨cs, ds, _, rfl, rfl⟩ := h.omits
  exact Hole.modifiers_fill rfl hm

theorem interfaces_eq (h : OmitsInBody H b t t')
    (hi : b.kind ≠ "super_interfaces" ∧ b.kind ≠ "extends_interfaces") :
    t.interfaces src = t'.interfaces src := by
  obtain ⟨cs, ds, _, rfl, rfl⟩ := h.omits
  exact Hole.interfaces_fill rfl hi

theorem added_eq (h : OmitsInBody H b t t') :
    added src t.bodyMembers = added src t'.bodyMembers := by
  obtain ⟨cs, ds, ho, rfl, rfl⟩ := h.omits
  rw [bodyMembers, bodyMembers, Hole.fieldChild?_fill h.isBody, Hole.fieldChild?_fill h.isBody]
  exact added_eq_of_omits ho none

/-- A type read from a tree is read from the smaller tree too. -/
theorem typeDecl_eq (h : OmitsInBody H b t t') (hb : H.ReadsBodyOnly b) :
    t.typeDecl src p k = t'.typeDecl src p k := by
  simp only [SyntaxTree.typeDecl_eq, header, h.fieldString_eq, h.superclass?_eq, h.added_eq,
    h.modifiers_eq hb.modifiers, h.interfaces_eq hb.interfaces, line, h.label_eq]

theorem agreesBut {d d' : TypeDecl} (h : OmitsInBody H b t t') (hd : t.typeDecl src p k = .ok d)
    (hd' : t'.typeDecl src p k = .ok d') : AgreesBut b.kind d d' := by
  simp only [SyntaxTree.typeDecl_eq, bind_eq_ok_iff, header_eq_ok_iff, h.fieldString_eq,
    h.superclass?_eq, h.added_eq] at hd hd'
  obtain ⟨n, hn, tp, htp, _, ⟨ms, doc, hms, hdoc, rfl⟩, sc, hsc, is, his, as, has, hd⟩ := hd
  obtain ⟨n', hn', tp', htp', _, ⟨ms', doc', hms', hdoc', rfl⟩, sc', hsc', is', his', as', has',
    hd'⟩ := hd'
  cases Except.ok.inj hd
  cases Except.ok.inj hd'
  cases hn.symm.trans hn'
  cases htp.symm.trans htp'
  cases hdoc.symm.trans hdoc'
  cases hsc.symm.trans hsc'
  cases has.symm.trans has'
  refine ⟨fun hk ↦ ?_, fun hk ↦ ?_⟩
  · cases his.symm.trans ((h.interfaces_eq (by simp [hk])).trans his')
    simp only [line, h.label_eq]
  · cases hms.symm.trans ((h.modifiers_eq fun hm ↦ by simp [hm] at hk).trans hms')
    simp only [line, h.label_eq]

end OmitsInBody

/-! ## A node is left out of the tree -/

/-- The types among some children of the root, the first of which comes after `p`. -/
def types (src : List Char) (p : Option SyntaxTree) (ts : List SyntaxTree) :
    Outlined (List TypeDecl) :=
  (withPrevious p ts).filterMapM fun (before, t) ↦ t.typeKeyword?.mapM (t.typeDecl src before)

theorem types_cons (src : List Char) (p : Option SyntaxTree) (t : SyntaxTree)
    (ts : List SyntaxTree) :
    types src p (t :: ts) = (do
      let o ← t.typeKeyword?.mapM (t.typeDecl src p)
      let ds ← types src (some t) ts
      pure (o.toList ++ ds)) := by
  rw [types, withPrevious, List.filterMapM_cons]
  refine bind_congr fun o ↦ ?_
  cases o with
  | none => exact (bind_pure _).symm
  | some d => rfl

theorem types_congr {ts : List SyntaxTree}
    (h : ∀ n ∈ ts.head?, n.typeKeyword?.isSome → p.map label = q.map label) :
    types src p ts = types src q ts := by
  cases ts with
  | nil => rfl
  | cons n ns =>
    rw [types_cons, types_cons]
    cases hk : n.typeKeyword? with
    | none => rfl
    | some k =>
      have hd : n.typeDecl src p k = n.typeDecl src q k :=
        typeDecl_congr (h n rfl (by simp [hk])) n k
      simp only [Option.mapM_some, hd]

theorem types_exchange {ts us : List SyntaxTree} (hl : t.label = t'.label)
    (h : ∀ q k, t.typeDecl src q k = t'.typeDecl src q k) :
    types src p (ts ++ t :: us) = types src p (ts ++ t' :: us) := by
  induction ts generalizing p with
  | nil =>
    have hd : t.typeDecl src p = t'.typeDecl src p := funext (h p)
    rw [List.nil_append, List.nil_append, types_cons, types_cons, typeKeyword?_congr hl, hd,
      types_congr (p := some t) (q := some t') fun _ _ _ ↦ congrArg some hl]
  | cons a ts ih => rw [List.cons_append, List.cons_append, types_cons, types_cons, ih]

/-- If a type is exchanged for another then only that type differs. -/
theorem of_types_exchange {ts us : List SyntaxTree} {ds ds' : List TypeDecl}
    (hl : t.label = t'.label) (hk : t.typeKeyword? = some k)
    (h : types src p (ts ++ t :: us) = .ok ds) (h' : types src p (ts ++ t' :: us) = .ok ds') :
    ∃ q as bs d d', ds = as ++ d :: bs ∧ ds' = as ++ d' :: bs ∧
      t.typeDecl src q k = .ok d ∧ t'.typeDecl src q k = .ok d' := by
  induction ts generalizing p ds ds' with
  | nil =>
    have hk' : t'.typeKeyword? = some k := typeKeyword?_congr hl ▸ hk
    have hu : types src (some t) us = types src (some t') us :=
      types_congr fun _ _ _ ↦ congrArg some hl
    simp only [List.nil_append, types_cons, hk, hk', Option.mapM_some, bind_eq_ok_iff,
      map_eq_ok_iff, hu] at h h'
    obtain ⟨_, ⟨d, hd, rfl⟩, bs, hbs, h⟩ := h
    obtain ⟨_, ⟨d', hd', rfl⟩, bs', hbs', h'⟩ := h'
    cases hbs.symm.trans hbs'
    exact ⟨p, [], bs, d, d', (Except.ok.inj h).symm, (Except.ok.inj h').symm, hd, hd'⟩
  | cons a ts ih =>
    simp only [List.cons_append, types_cons, bind_eq_ok_iff] at h h'
    obtain ⟨o, ho, ds, hds, h⟩ := h
    obtain ⟨o', ho', ds', hds', h'⟩ := h'
    cases ho.symm.trans ho'
    cases Except.ok.inj h
    cases Except.ok.inj h'
    obtain ⟨q, as, bs, d, d', rfl, rfl, hd⟩ := ih hds hds'
    exact ⟨q, o.toList ++ as, bs, d, d', by simp, by simp, hd⟩

theorem types_omit {ts us : List SyntaxTree} (ht : t.typeKeyword? = none)
    (hn : ∀ n ∈ us.head?, n.typeKeyword? = none) :
    types src p (ts ++ t :: us) = types src p (ts ++ us) := by
  induction ts generalizing p with
  | nil =>
    rw [List.nil_append, List.nil_append, types_cons, ht,
      types_congr (q := p) fun n hm hs ↦ by simp [hn n hm] at hs]
    exact bind_pure (types src p us)
  | cons a ts ih => rw [List.cons_append, List.cons_append, types_cons, types_cons, ih]

theorem ofTree_eq (src : String) (root : SyntaxTree) (path : Option String) :
    CompilationUnit.ofTree src root path = (do
      let package ← root.packageNode?.mapM (string src.toList)
      let imports ← root.imports src.toList
      let ds ← types src.toList none root.children
      pure { path, package, imports, types := ds }) := rfl

/-- Of the children of the root only the package, the imports and the types are read. -/
theorem ofTree_congr {src : String} {root root' : SyntaxTree}
    (hp : root.children.filter (·.kind == "package_declaration") =
      root'.children.filter (·.kind == "package_declaration"))
    (hi : root.children.filter (·.kind == "import_declaration") =
      root'.children.filter (·.kind == "import_declaration"))
    (ht : types src.toList none root.children = types src.toList none root'.children)
    (path : Option String) :
    CompilationUnit.ofTree src root path = CompilationUnit.ofTree src root' path := by
  rw [ofTree_eq, ofTree_eq, packageNode?, packageNode?, imports, imports, hp, hi, ht]

/-- The tree without a child of the root that is neither a type nor the package nor an import, where
no type comes next. -/
inductive OmitsChild : SyntaxTree → SyntaxTree → Prop
  | intro {l : NodeLabel} {ts us : List SyntaxTree} {t : SyntaxTree} (ht : t.typeKeyword? = none)
      (hp : t.kind ≠ "package_declaration") (hi : t.kind ≠ "import_declaration")
      (hn : ∀ n ∈ us.head?, n.typeKeyword? = none) :
      OmitsChild (.node l (ts ++ t :: us)) (.node l (ts ++ us))

theorem ofTree_eq_of_omitsChild {root root' : SyntaxTree} (h : OmitsChild root root')
    (src : String) (path : Option String) :
    CompilationUnit.ofTree src root path = CompilationUnit.ofTree src root' path := by
  cases h with
  | intro ht hp hi hn =>
    refine ofTree_congr ?_ ?_ (types_omit ht hn) path
    · simp [List.filter_append, hp]
    · simp [List.filter_append, hi]

/-- A type is neither the package nor an import. -/
theorem kind_ne_of_isSome (h : t.typeKeyword?.isSome) :
    t.kind ≠ "package_declaration" ∧ t.kind ≠ "import_declaration" := by
  constructor <;> intro hk <;> simp [typeKeyword?, hk] at h

theorem ofTree_eq_of_omitsInBody {R : Hole} (h : OmitsInBody H b t t') (hb : H.ReadsBodyOnly b)
    (ht : t.typeKeyword?.isSome) (src : String) (path : Option String) :
    CompilationUnit.ofTree src (R.fill t) path = CompilationUnit.ofTree src (R.fill t') path := by
  obtain ⟨hp, hi⟩ := kind_ne_of_isSome ht
  obtain ⟨hp', hi'⟩ := kind_ne_of_isSome (typeKeyword?_congr h.label_eq ▸ ht)
  exact ofTree_congr (Hole.filter_fill (by simpa using hp) (by simpa using hp'))
    (Hole.filter_fill (by simpa using hi) (by simpa using hi'))
    (types_exchange h.label_eq fun _ _ ↦ h.typeDecl_eq hb) path

theorem agreesBut_of_omitsInBody {R : Hole} {src : String} {path : Option String}
    {u u' : CompilationUnit} (h : OmitsInBody H b t t') (ht : t.typeKeyword?.isSome)
    (hu : CompilationUnit.ofTree src (R.fill t) path = .ok u)
    (hu' : CompilationUnit.ofTree src (R.fill t') path = .ok u') :
    ∃ as bs d d', u.types = as ++ d :: bs ∧ u' = { u with types := as ++ d' :: bs } ∧
      AgreesBut b.kind d d' := by
  obtain ⟨hp, hi⟩ := kind_ne_of_isSome ht
  obtain ⟨hp', hi'⟩ := kind_ne_of_isSome (typeKeyword?_congr h.label_eq ▸ ht)
  obtain ⟨k, hk⟩ := Option.isSome_iff_exists.1 ht
  have hp := Hole.filter_fill (H := R) (f := (·.kind == "package_declaration")) (by simpa using hp)
    (by simpa using hp')
  have hi := Hole.filter_fill (H := R) (f := (·.kind == "import_declaration")) (by simpa using hi)
    (by simpa using hi')
  simp only [ofTree_eq, packageNode?, imports, hp, hi, bind_eq_ok_iff] at hu hu'
  obtain ⟨pk, hpk, is, his, ds, hds, hu⟩ := hu
  obtain ⟨pk', hpk', is', his', ds', hds', hu'⟩ := hu'
  cases hpk.symm.trans hpk'
  cases his.symm.trans his'
  cases Except.ok.inj hu
  cases Except.ok.inj hu'
  obtain ⟨q, as, bs, d, d', rfl, rfl, hd, hd'⟩ := of_types_exchange h.label_eq hk hds hds'
  exact ⟨as, bs, d, d', rfl, rfl, h.agreesBut hd hd'⟩

/-- The outline of a tree has the declarations of the tree: all of them, once and in their order.
Those of a body are met by a walk that goes from left to right into each group of members and into
nothing else.

What the outline passes over, and no declaration follows, does not change it when it is left out;
from a body that is read as something else too, only what else it is read as may change, and if the
tree cuts no character then something still is read. -/
theorem outline_declarations {src : String} {root : SyntaxTree} {path : Option String}
    {u : CompilationUnit} (h : CompilationUnit.ofTree src root path = .ok u) :
    List.Forall₂ (IsType src.toList root) root.typeSites u.types ∧
    (∀ b : Site, (walk b).Pairwise (fun s s' ↦ Place.Precedes s.1 s'.1) ∧
      ∀ s, s ∈ walk b ↔ Met b s) ∧
    (∀ root', OmitsChild root root' → CompilationUnit.ofTree src root' path = .ok u) ∧
    ∀ (R H : Hole) (b : NodeLabel) (t t' : SyntaxTree), root = R.fill t → t.typeKeyword?.isSome →
      OmitsInBody H b t t' →
      (H.ReadsBodyOnly b → CompilationUnit.ofTree src (R.fill t') path = .ok u) ∧
      (Fits src.toList root → ∃ u', CompilationUnit.ofTree src (R.fill t') path = .ok u') ∧
      ∀ u', CompilationUnit.ofTree src (R.fill t') path = .ok u' →
        ∃ as bs d d', u.types = as ++ d :: bs ∧ u' = { u with types := as ++ d' :: bs } ∧
          AgreesBut b.kind d d' := by
  refine ⟨isType_of_ofTree h, ?_, ?_, ?_⟩
  · intro b
    exact ⟨pairwise_walk b, fun s ↦ mem_walk_iff⟩
  · intro root' ho
    rw [← ofTree_eq_of_omitsChild ho, h]
  · rintro R H b t t' rfl ht ho
    refine ⟨?_, ?_, ?_⟩
    · intro hb
      rw [← ofTree_eq_of_omitsInBody ho hb ht, h]
    · intro hfits
      exact exists_ofTree (Hole.fits_fill hfits (ho.fits (Hole.fits_of_fits_fill hfits))) path
    · intro u' hu'
      exact agreesBut_of_omitsInBody ho ht h hu'

namespace Sample

def leaf (kind : String) (field : Option String) (start stop : Nat) : SyntaxTree :=
  .node { kind, field, start, stop, row := 0 } []

/-! The text `A x y` has a class with the body `x y`, in which `x` is the type and `y` the name of a
field.  There are stray nodes behind the class and behind the field. -/

def chars : List Char := ['A', ' ', 'x', ' ', 'y']

def source : String := String.ofList chars

theorem toList_source : source.toList = chars := String.toList_ofList

def stray : SyntaxTree := leaf ";" none 1 2

def declarator : SyntaxTree :=
  .node { kind := "variable_declarator", field := some "declarator", start := 4, stop := 5,
          row := 0 }
    [leaf "identifier" (some "name") 4 5]

def fieldNode : SyntaxTree :=
  .node { kind := "field_declaration", start := 2, stop := 5, row := 0 }
    [leaf "type_identifier" (some "type") 2 3, declarator]

def bodyLabel : NodeLabel :=
  { kind := "class_body", field := some "body", start := 2, stop := 5, row := 0 }

def classHole : Hole :=
  { label := { kind := "class_declaration", start := 0, stop := 5, row := 0 }
    left := [leaf "identifier" (some "name") 0 1]
    right := [] }

def rootLabel : NodeLabel := { kind := "program", start := 0, stop := 5, row := 0 }

def classNode : SyntaxTree := classHole.fill (.node bodyLabel [fieldNode, stray])

def root : SyntaxTree := .node rootLabel [classNode, stray]

def outline : CompilationUnit :=
  { types := [{ name := "A", line := 1, fields := [{ name := "y", line := 1, type := "x" }] }] }

/-! The text `A final` has a class with the body `final`, whose node is also that of the
modifiers. -/

def bentChars : List Char := ['A', ' ', 'f', 'i', 'n', 'a', 'l']

def bentSource : String := String.ofList bentChars

theorem toList_bentSource : bentSource.toList = bentChars := String.toList_ofList

def keyword : SyntaxTree := leaf "final" none 2 7

def bentLabel : NodeLabel :=
  { kind := "modifiers", field := some "body", start := 2, stop := 7, row := 0 }

def bentClass (body : List SyntaxTree) : SyntaxTree := classHole.fill (.node bentLabel body)

def bentRoot (body : List SyntaxTree) : SyntaxTree := .node rootLabel [bentClass body]

end Sample

open Sample

theorem ofTree_sample_root : CompilationUnit.ofTree source root none = .ok outline := by
  rw [CompilationUnit.ofTree, toList_source]
  rfl

theorem outline_declarations_sample :
    List.Forall₂ (IsType source.toList root) root.typeSites outline.types ∧
    CompilationUnit.ofTree source (.node rootLabel [classNode]) none = .ok outline ∧
    CompilationUnit.ofTree source
      (.node rootLabel [classHole.fill (.node bodyLabel [fieldNode]), stray]) none =
        .ok outline := by
  obtain ⟨htypes, _, hchild, hbody⟩ := outline_declarations ofTree_sample_root
  have hc : OmitsChild (.node rootLabel ([classNode] ++ stray :: []))
      (.node rootLabel ([classNode] ++ [])) := .intro rfl (by decide) (by decide) (by simp)
  have hb : OmitsInBody classHole bodyLabel classNode
      (classHole.fill (.node bodyLabel [fieldNode])) :=
    ⟨⟨rfl, by simp [classHole, leaf]⟩, _, _, .later _ (.here rfl (by simp)), rfl, rfl⟩
  exact ⟨htypes, hchild _ hc,
    (hbody ⟨rootLabel, [], [stray]⟩ _ _ _ _ rfl rfl hb).1 ⟨nofun, by decide⟩⟩

/-- A body that is read as the modifiers too is not read the same without one of its nodes. -/
theorem ofTree_bentRoot_ne :
    OmitsInBody classHole bentLabel (bentClass [keyword]) (bentClass []) ∧
    CompilationUnit.ofTree bentSource (bentRoot [keyword]) none =
      .ok { types := [{ name := "A", line := 1, modifiers := ["final"] }] } ∧
    CompilationUnit.ofTree bentSource (bentRoot []) none ≠
      CompilationUnit.ofTree bentSource (bentRoot [keyword]) none := by
  have h : CompilationUnit.ofTree bentSource (bentRoot [keyword]) none =
      .ok { types := [{ name := "A", line := 1, modifiers := ["final"] }] } := by
    rw [CompilationUnit.ofTree, toList_bentSource]
    rfl
  have h' : CompilationUnit.ofTree bentSource (bentRoot []) none =
      .ok { types := [{ name := "A", line := 1 }] } := by
    rw [CompilationUnit.ofTree, toList_bentSource]
    rfl
  refine ⟨⟨⟨rfl, by simp [classHole, leaf]⟩, _, _, .here rfl (by simp), rfl, rfl⟩, h, ?_⟩
  rw [h, h']
  simp

end SyntaxTree

end JavaOutline
