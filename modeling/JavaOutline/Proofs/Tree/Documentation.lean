import JavaOutline.Proofs.Doc.TagLines
import JavaOutline.Proofs.Tree.Boundaries

/-! # The documentation of a declaration

A declaration is documented by the node before it, if that is a documentation comment, and by
nothing else.  As a node stands before at most one other, a comment documents one declaration only;
the variables of one field declaration share its comment.

If the tree says truly on which line each comment starts, then every tag is given the line of the
text that it stands on. -/

namespace JavaOutline

open Text

namespace SyntaxTree

variable {src : List Char} {root : SyntaxTree}

/-- The node `c` at the place `σ` is a documentation comment with the text `s`, and the node at `π`
is the next one. -/
structure Documents (src : List Char) (root : SyntaxTree) (σ : Place) (c : SyntaxTree)
    (s : List Char) (π : Place) : Prop where
  before : π.before? = some σ
  at? : root.at? σ = some c
  kind : c.kind = "block_comment"
  text : c.text src = .ok s
  isDocComment : Doc.isDocComment s

/-- The node says truly how many line feeds are before it. -/
def HasTrueRow (src : List Char) (t : SyntaxTree) : Prop :=
  ∀ pre post, src = pre ++ post → byteLength pre = t.label.start → t.label.row = pre.count '\n'

namespace Documents

variable {σ σ' π π' : Place} {c c' : SyntaxTree} {s s' : List Char}

/-- At most one comment documents a declaration. -/
theorem eq (h : Documents src root σ c s π) (h' : Documents src root σ' c' s' π) :
    c = c' ∧ s = s' := by
  cases h.before.symm.trans h'.before
  cases h.at?.symm.trans h'.at?
  exact ⟨rfl, Except.ok.inj (h.text.symm.trans h'.text)⟩

/-- A comment documents at most one declaration. -/
theorem place_eq (h : Documents src root σ c s π) (h' : Documents src root σ c' s' π') : π = π' :=
  Place.eq_of_before?_eq h.before h'.before

theorem standsIn (h : Documents src root σ c s π) (hrow : HasTrueRow src c) {t : Tag}
    (ht : t ∈ (Doc.read (String.ofList s) c.line).tags) : t.StandsIn src := by
  have hs : s ≠ [] := by
    rintro rfl
    exact absurd h.isDocComment (by decide)
  obtain ⟨pre, post, rfl, hp⟩ := exists_of_slice h.text hs
  rw [line, hrow pre (s ++ post) (List.append_assoc _ _ _) hp] at ht
  exact Doc.standsIn_of_mem_tags h.isDocComment ht post

end Documents

theorem of_documentation {π : Place} {doc : Doc}
    (h : documentation src (root.nodeBefore? π) = .ok doc) :
    (∃ σ c s, Documents src root σ c s π ∧ doc = Doc.read (String.ofList s) c.line) ∨
      (∀ σ c s, ¬Documents src root σ c s π) ∧ doc = { body := none, tags := [] } := by
  rw [nodeBefore?] at h
  cases hb : π.before? with
  | none =>
    rw [hb] at h
    exact .inr ⟨fun σ c s hd ↦ absurd (hb.symm.trans hd.before) nofun, (Except.ok.inj h).symm⟩
  | some σ =>
    rw [hb, Option.bind_some] at h
    cases hc : root.at? σ with
    | none =>
      rw [hc] at h
      refine .inr ⟨fun σ' c s hd ↦ ?_, (Except.ok.inj h).symm⟩
      cases hb.symm.trans hd.before
      exact absurd (hc.symm.trans hd.at?) nofun
    | some c =>
      rw [hc, documentation] at h
      split at h
      · next hk =>
        obtain ⟨s, hs, h⟩ := bind_eq_ok_iff.1 h
        by_cases hd : Doc.isDocComment s
        · rw [if_pos hd] at h
          exact .inl ⟨σ, c, s, ⟨hb, hc, hk, hs, hd⟩, (Except.ok.inj h).symm⟩
        · rw [if_neg hd] at h
          refine .inr ⟨fun σ' c' s' hd' ↦ hd ?_, (Except.ok.inj h).symm⟩
          cases hb.symm.trans hd'.before
          cases hc.symm.trans hd'.at?
          cases hs.symm.trans hd'.text
          exact hd'.isDocComment
      · next hk =>
        refine .inr ⟨fun σ' c' s' hd ↦ hk ?_, (Except.ok.inj h).symm⟩
        cases hb.symm.trans hd.before
        cases hc.symm.trans hd.at?
        exact hd.kind

/-- A declaration has the documentation of the comment right before its node, and none if there is
no such comment.  Each tag stands on its line, below the one before it. -/
structure IsDocumented (src : List Char) (root : SyntaxTree) (site : Site) (h : Header) : Prop where
  at? : root.at? site.1 = some site.2
  read : ∀ σ c s, Documents src root σ c s site.1 →
    h.comment = (Doc.read (String.ofList s) c.line).body ∧
      h.tags = (Doc.read (String.ofList s) c.line).tags
  bare : (∀ σ c s, ¬Documents src root σ c s site.1) → h.comment = none ∧ h.tags = []
  standsIn : ∀ t ∈ h.tags, t.StandsIn src
  pairwise : h.tags.Pairwise (·.line < ·.line)

/-- Each comment of the tree says truly how many line feeds are before it. -/
def HasTrueRows (src : List Char) (root : SyntaxTree) : Prop :=
  ∀ π c, root.at? π = some c → c.kind = "block_comment" → HasTrueRow src c

theorem isDocumented_of_header {site : Site} {name : String} {line : Int} {h : Header}
    (hrows : HasTrueRows src root) (hat : root.at? site.1 = some site.2)
    (hh : site.2.header src (root.nodeBefore? site.1) name line = .ok h) :
    IsDocumented src root site h := by
  obtain ⟨ms, doc, _, hdoc, rfl⟩ := header_eq_ok_iff.1 hh
  rcases of_documentation hdoc with ⟨σ, c, s, hd, hr⟩ | ⟨hn, hr⟩
  · have hstands : ∀ t ∈ doc.tags, t.StandsIn src := by
      rw [hr]
      exact fun t ht ↦ hd.standsIn (hrows σ c hd.at? hd.kind) ht
    have hpairwise : doc.tags.Pairwise (·.line < ·.line) := by
      rw [hr]
      exact Doc.pairwise_tags (String.ofList s) c.line
    refine ⟨hat, fun σ' c' s' hd' ↦ ?_, fun hn ↦ absurd hd (hn σ c s), hstands, hpairwise⟩
    obtain ⟨hc, hs⟩ := hd.eq hd'
    rw [← hc, ← hs, ← hr]
    exact ⟨rfl, rfl⟩
  · cases hr
    exact ⟨hat, fun σ c s hd ↦ absurd hd (hn σ c s), fun _ ↦ ⟨rfl, rfl⟩, nofun, .nil⟩

/-- A type and all that it declares are documented; parameters have no documentation. -/
structure AreDocumented (src : List Char) (root : SyntaxTree) (site : Site) (d : TypeDecl) :
    Prop where
  type : IsDocumented src root site d.toHeader
  fields : List.Forall₂ (fun p f ↦ IsDocumented src root p.1 f.toHeader) (fieldSites site) d.fields
  methods : List.Forall₂ (fun c m ↦ IsDocumented src root c m.toHeader ∧
    ∀ p ∈ m.parameters, p.comment = none ∧ p.tags = []) (methodSites site) d.methods

theorem at?_of_mem_bodySites {site s : Site} (hat : root.at? site.1 = some site.2)
    (hs : s ∈ bodySites site) : root.at? s.1 = some s.2 := by
  rw [bodySites] at hs
  cases hb : bodySite? site with
  | none => simp [hb] at hs
  | some b =>
    rw [hb] at hs
    exact at?_of_mem_walk (at?_of_mem_childSites hat (List.mem_of_find?_eq_some hb)) hs

theorem areDocumented_of_isType {site : Site} {d : TypeDecl} (hrows : HasTrueRows src root)
    (hat : root.at? site.1 = some site.2) (h : IsType src root site d) :
    AreDocumented src root site d := by
  have hf : ∀ p ∈ fieldSites site, root.at? p.1.1 = some p.1.2 := by
    intro p hp
    obtain ⟨s, hs, hp⟩ := List.mem_flatMap.1 hp
    obtain ⟨v, _, rfl⟩ := List.mem_map.1 hp
    exact at?_of_mem_bodySites hat (List.mem_of_mem_filter hs)
  have hm : ∀ c ∈ methodSites site, root.at? c.1 = some c.2 :=
    fun c hc ↦ at?_of_mem_bodySites hat (List.mem_of_mem_filter hc)
  refine ⟨isDocumented_of_header hrows hat h.header, ?_, ?_⟩
  · exact ((List.forall₂_and_left _ _).2 ⟨hf, h.fields⟩).imp fun p f hp ↦
      isDocumented_of_header hrows hp.1 hp.2.header
  · refine ((List.forall₂_and_left _ _).2 ⟨hm, h.methods⟩).imp fun c m hc ↦
      ⟨isDocumented_of_header hrows hc.1 hc.2.header, ?_⟩
    exact forall_mem_of_forall₂ hc.2.parameters fun _ p hp ↦ ⟨hp.comment, hp.tags⟩

/-- In a tree that says truly on which lines its comments start, each declaration has the
documentation of the comment right before its node, each tag stands on its line of the text, and no
comment documents two declarations.  All of this is read from any tree that cuts no character. -/
theorem outline_documentation {src : String} {root : SyntaxTree}
    (hrows : HasTrueRows src.toList root) (path : Option String) :
    (Fits src.toList root → ∃ u, CompilationUnit.ofTree src root path = .ok u) ∧
    (∀ u, CompilationUnit.ofTree src root path = .ok u →
      List.Forall₂ (AreDocumented src.toList root) root.typeSites u.types) ∧
    ∀ (σ : Place) (c c' : SyntaxTree) (t t' : List Char) (s s' : Site),
      root.at? s.1 = some s.2 → root.at? s'.1 = some s'.2 →
      Documents src.toList root σ c t s.1 → Documents src.toList root σ c' t' s'.1 → s = s' := by
  refine ⟨fun hfits ↦ exists_ofTree hfits path, ?_, ?_⟩
  · intro u h
    have hat : ∀ s ∈ root.typeSites, root.at? s.1 = some s.2 :=
      fun s hs ↦ at?_of_mem_childSites rfl (List.mem_of_mem_filter hs)
    exact ((List.forall₂_and_left _ _).2 ⟨hat, isType_of_ofTree h⟩).imp fun s d hd ↦
      areDocumented_of_isType hrows hd.1 hd.2
  · intro σ c c' t t' s s' hs hs' hd hd'
    have hp := hd.place_eq hd'
    rw [← hp, hs] at hs'
    exact Prod.ext hp (Option.some.inj hs')

/-! The text is an empty line and a second line `/**@a*/A`, which has a comment with the tag `a` and
a class. -/

namespace Documented

def chars : List Char := ['\n', '/', '*', '*', '@', 'a', '*', '/', 'A']

def source : String := String.ofList chars

theorem toList_source : source.toList = chars := String.toList_ofList

def comment : SyntaxTree := .node { kind := "block_comment", start := 1, stop := 8, row := 1 } []

def name : SyntaxTree :=
  .node { kind := "identifier", field := some "name", start := 8, stop := 9, row := 1 } []

def classNode : SyntaxTree :=
  .node { kind := "class_declaration", start := 8, stop := 9, row := 1 } [name]

def tree : SyntaxTree :=
  .node { kind := "program", start := 1, stop := 9, row := 1 } [comment, classNode]

def outline : CompilationUnit :=
  { types := [{ name := "A", line := 2, tags := [{ name := "a", value := "", line := 2 }] }] }

end Documented

open Documented

theorem hasTrueRows_documented : HasTrueRows source.toList tree := by
  intro π c hc hk
  have hall : c = tree ∨ c = comment ∨ c = classNode ∨ c = name := by
    refine forall_at? (P := fun c ↦ c = tree ∨ c = comment ∨ c = classNode ∨ c = name) (.inl rfl)
      ?_ hc
    rintro t (rfl | rfl | rfl | rfl) c hc
    · simp only [tree, children_node, List.mem_cons, List.not_mem_nil, or_false] at hc
      rcases hc with rfl | rfl <;> simp
    · exact absurd hc List.not_mem_nil
    · simp only [classNode, children_node, List.mem_singleton] at hc
      simp [hc]
    · exact absurd hc List.not_mem_nil
  rcases hall with rfl | rfl | rfl | rfl
  · exact absurd hk (by decide)
  · intro pre post hs hp
    have hpre : pre <+: chars := by rw [← toList_source, hs]; exact List.prefix_append pre post
    rw [eq_of_byteLength_eq hpre (q := ['\n']) ⟨_, rfl⟩ hp]
    rfl
  · exact absurd hk (by decide)
  · exact absurd hk (by decide)

theorem fits_documented : Fits source.toList tree := by
  rw [toList_source]
  have hstart : IsBoundary chars 1 := isBoundary_of_take (k := 1) rfl
  have hcomment : IsBoundary chars 8 := isBoundary_of_take (k := 8) rfl
  have hstop : IsBoundary chars 9 := isBoundary_of_take (k := 9) rfl
  have hname : Fits chars name := .node hcomment hstop nofun
  have hclass : Fits chars classNode := .node hcomment hstop (List.forall_mem_singleton.2 hname)
  refine .node hstart hstop (List.forall_mem_cons.2 ⟨?_, List.forall_mem_singleton.2 hclass⟩)
  exact .node hstart hcomment nofun

theorem outline_documentation_documented :
    CompilationUnit.ofTree source tree none = .ok outline ∧
    List.Forall₂ (AreDocumented source.toList tree) tree.typeSites outline.types ∧
    Documents source.toList tree [0] comment ['/', '*', '*', '@', 'a', '*', '/'] [1] ∧
    ∀ (c : SyntaxTree) (t : List Char) (s : Site), tree.at? s.1 = some s.2 →
      Documents source.toList tree [0] c t s.1 → s = ([1], classNode) := by
  have h : CompilationUnit.ofTree source tree none = .ok outline := by
    rw [CompilationUnit.ofTree, toList_source]
    rfl
  have hc : Documents source.toList tree [0] comment ['/', '*', '*', '@', 'a', '*', '/'] [1] := by
    refine ⟨rfl, rfl, rfl, ?_, by decide⟩
    rw [toList_source]
    rfl
  obtain ⟨hreturns, hdoc, hone⟩ := outline_documentation hasTrueRows_documented none
  obtain ⟨u, hu⟩ := hreturns fits_documented
  cases hu.symm.trans h
  exact ⟨h, hdoc _ h, hc, fun c t s hs hd ↦ hone [0] c comment t _ s ([1], classNode) hs rfl hd hc⟩

end SyntaxTree

end JavaOutline
