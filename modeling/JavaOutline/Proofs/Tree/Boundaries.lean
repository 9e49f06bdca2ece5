import JavaOutline.Proofs.Text.Slice
import JavaOutline.Proofs.Tree.Declarations

/-! # Trees that cut no character

The one thing that can go wrong in an outline is a node that cuts a character of the text: what an
outline fails with is what the text of some node fails with (`Reads.ofTree`).  So a tree whose nodes
all start and end between characters has an outline, whatever its shape (`exists_ofTree`). -/

namespace JavaOutline

open Text

namespace SyntaxTree

variable {src : List Char} {t v : SyntaxTree} {before : Option SyntaxTree}

/-- Every node of the tree starts and ends on a boundary of the text. -/
inductive Fits (src : List Char) : SyntaxTree → Prop
  | node {l : NodeLabel} {cs : List SyntaxTree} (start : IsBoundary src l.start)
      (stop : IsBoundary src l.stop) (children : ∀ c ∈ cs, Fits src c) : Fits src (.node l cs)

theorem Fits.child (h : Fits src t) {c : SyntaxTree} (hc : c ∈ t.children) : Fits src c := by
  cases h with
  | node _ _ hcs => exact hcs c hc

/-- Reading the text of a node of the tree fails only in this way. -/
inductive Reads (E : CutCharacter → Prop) (src : List Char) : SyntaxTree → Prop
  | node {l : NodeLabel} {cs : List SyntaxTree} (text : FailsOnly E (slice src l.start l.stop))
      (children : ∀ c ∈ cs, Reads E src c) : Reads E src (.node l cs)

/-- A node that may be missing. -/
def ReadsMaybe (E : CutCharacter → Prop) (src : List Char) (o : Option SyntaxTree) : Prop :=
  ∀ t ∈ o, Reads E src t

variable {E : CutCharacter → Prop}

theorem readsMaybe_none : ReadsMaybe E src none := nofun

theorem readsMaybe_some (h : Reads E src t) : ReadsMaybe E src (some t) := by
  rintro _ ⟨⟩
  exact h

/-! ## Nodes that can be read -/

namespace Reads

theorem child (h : Reads E src t) {c : SyntaxTree} (hc : c ∈ t.children) : Reads E src c := by
  cases h with
  | node _ hcs => exact hcs c hc

theorem find? (h : Reads E src t) (f : SyntaxTree → Bool) :
    ReadsMaybe E src (t.children.find? f) :=
  fun _ hc ↦ h.child (List.mem_of_find?_eq_some hc)

theorem filter (h : Reads E src t) {f : SyntaxTree → Bool} {c : SyntaxTree}
    (hc : c ∈ t.children.filter f) : Reads E src c :=
  h.child (List.mem_of_mem_filter hc)

theorem text (h : Reads E src t) : FailsOnly E (t.text src) := by
  cases h with
  | node ht _ => exact ht

theorem string (h : Reads E src t) : FailsOnly E (t.string src) := h.text.map String.ofList

end Reads

theorem failsOnly_stringD {o : Option SyntaxTree} (h : ReadsMaybe E src o) :
    FailsOnly E (stringD src o) := by
  cases o with
  | none => exact .ok ""
  | some t => exact (h t rfl).string

theorem Reads.fieldString (h : Reads E src t) (f : String) : FailsOnly E (t.fieldString src f) :=
  failsOnly_stringD (h.find? _)

theorem failsOnly_typeString (h : Reads E src t) (hv : Reads E src v) :
    FailsOnly E (typeString src t v) :=
  (h.fieldString _).bind fun a ↦ (hv.fieldString _).map (a ++ ·)

theorem failsOnly_documentation (h : ReadsMaybe E src before) :
    FailsOnly E (documentation src before) := by
  cases before with
  | none => exact .ok _
  | some p =>
    rw [documentation]
    split
    · exact (h p rfl).text.map _
    · exact .ok _

theorem failsOnly_spreadParts {cs : List SyntaxTree} (h : ∀ c ∈ cs, Reads E src c)
    (parts : String × String) : FailsOnly E (spreadParts src cs parts) := by
  induction cs generalizing parts with
  | nil => exact .ok parts
  | cons c cs ih =>
    obtain ⟨hc, hcs⟩ := List.forall_mem_cons.1 h
    obtain ⟨type, name⟩ := parts
    rw [spreadParts]
    split
    · exact (hc.fieldString _).bind fun n ↦ ih hcs (type, n)
    · split
      · exact hc.string.bind fun s ↦ ih hcs (s, name)
      · exact ih hcs (type, name)

namespace Reads

/-! ## The parts of a declaration -/

theorem modifiers (h : Reads E src t) : FailsOnly E (t.modifiers src) := by
  rw [SyntaxTree.modifiers]
  split
  · exact .ok []
  · next m hm => exact .mapM fun c hc ↦ (h.find? _ m hm |>.filter hc).string

theorem header (h : Reads E src t) (hb : ReadsMaybe E src before) (name : String) (line : Int) :
    FailsOnly E (t.header src before name line) :=
  h.modifiers.bind fun _ ↦ (failsOnly_documentation hb).map _

theorem typeList (h : Reads E src t) : FailsOnly E (t.typeList src) := by
  refine .mapM fun c hc ↦ (Reads.filter ?_ hc).string
  cases hl : t.namedChildren.find? (·.kind == "type_list") with
  | none => exact h
  | some l => exact h.filter (List.mem_of_find?_eq_some hl)

theorem exceptions (h : Reads E src t) : FailsOnly E (t.exceptions src) := by
  rw [SyntaxTree.exceptions]
  split
  · exact .ok []
  · next e he => exact .mapM fun c hc ↦ (h.find? _ e he |>.filter hc).string

theorem body? (h : Reads E src t) : FailsOnly E (t.body? src) := by
  rw [SyntaxTree.body?]
  split
  · exact .ok none
  · next b hb => exact (h.find? _ b hb).text.map _

theorem parameter? (h : Reads E src t) : FailsOnly E (parameter? src t) := by
  rw [SyntaxTree.parameter?]
  split
  · exact (h.fieldString _).bind fun _ ↦ (failsOnly_typeString h h).bind fun _ ↦ h.modifiers.map _
  · split
    · exact (failsOnly_spreadParts (fun c hc ↦ h.filter hc) _).bind fun _ ↦ h.modifiers.map _
    · exact .ok none

theorem parameters (h : Reads E src t) : FailsOnly E (t.parameters src) := by
  rw [SyntaxTree.parameters]
  split
  · exact .ok []
  · next ps hps =>
    exact (FailsOnly.mapM fun c hc ↦ (h.find? _ ps hps |>.filter hc).parameter?).map _

theorem superclass? (h : Reads E src t) : FailsOnly E (t.superclass? src) := by
  refine .mapM_option fun c hc ↦ ?_
  obtain ⟨s, hs, hc⟩ := Option.bind_eq_some_iff.1 hc
  exact (h.find? _ s hs |>.filter (List.mem_of_getLast? hc)).string

theorem interfaces (h : Reads E src t) : FailsOnly E (t.interfaces src) :=
  (FailsOnly.mapM fun _ hc ↦ (h.filter hc).typeList).map List.flatten

/-! ## Declarations -/

theorem method (h : Reads E src t) (hb : ReadsMaybe E src before) (c : Bool) :
    FailsOnly E (t.method src before c) := by
  have hr : FailsOnly E (if c then pure none else some <$> typeString src t t) := by
    split
    · exact .ok none
    · exact (failsOnly_typeString h h).map some
  rw [method_eq]
  exact hr.bind fun _ ↦ (h.fieldString _).bind fun _ ↦ h.exceptions.bind fun _ ↦
    ((h.fieldString _).map _).bind fun _ ↦ h.body?.bind fun _ ↦ (h.header hb _ _).bind fun _ ↦
    h.parameters.map _

theorem field (h : Reads E src t) (hv : Reads E src v) (hb : ReadsMaybe E src before) :
    FailsOnly E (t.field src before v) :=
  (hv.fieldString _).bind fun _ ↦ (failsOnly_typeString h hv).bind fun _ ↦
    (FailsOnly.mapM_option fun _ hc ↦ (hv.find? _ _ hc).string).bind fun _ ↦
    (h.header hb _ _).map _

theorem fields (h : Reads E src t) (hb : ReadsMaybe E src before) :
    FailsOnly E (t.fields src before) :=
  (h.fieldString _).bind fun _ ↦ .mapM fun _ hc ↦ h.field (h.filter hc) hb

theorem member (h : Reads E src t) (hb : ReadsMaybe E src before) :
    FailsOnly E (member src (before, t)) := by
  rw [member_eq]
  split
  · exact (h.fields hb).map _
  · exact (h.method hb _).map _
  · exact (h.fieldString _).map _
  · exact .ok Member.nothing
  · exact .ok Member.nothing

end Reads

/-- A node and the one before it. -/
structure ReadsBoth (E : CutCharacter → Prop) (src : List Char)
    (m : Option SyntaxTree × SyntaxTree) : Prop where
  before : ReadsMaybe E src m.1
  node : Reads E src m.2

mutual

theorem readsBoth_of_mem_membersOfNode {p : Option SyntaxTree} {t : SyntaxTree}
    {m : Option SyntaxTree × SyntaxTree} (hp : ReadsMaybe E src p) (ht : Reads E src t)
    (hm : m ∈ membersOfNode p t) : ReadsBoth E src m :=
  match t with
  | .node l cs => by
    rw [membersOfNode] at hm
    split at hm
    · exact readsBoth_of_mem_membersOf readsMaybe_none (fun c hc ↦ ht.child hc) hm
    · rw [List.mem_singleton.1 hm]
      exact ⟨hp, ht⟩

theorem readsBoth_of_mem_membersOf {p : Option SyntaxTree} {ts : List SyntaxTree}
    {m : Option SyntaxTree × SyntaxTree} (hp : ReadsMaybe E src p) (hts : ∀ t ∈ ts, Reads E src t)
    (hm : m ∈ membersOf p ts) : ReadsBoth E src m :=
  match ts with
  | [] => absurd hm List.not_mem_nil
  | t :: ts => by
    obtain ⟨ht, hts⟩ := List.forall_mem_cons.1 hts
    rw [membersOf] at hm
    rcases List.mem_append.1 hm with hm | hm
    · exact readsBoth_of_mem_membersOfNode hp ht hm
    · exact readsBoth_of_mem_membersOf (readsMaybe_some ht) hts hm

end

theorem readsBoth_of_mem_withPrevious {p : Option SyntaxTree} {ts : List SyntaxTree}
    {m : Option SyntaxTree × SyntaxTree} (hp : ReadsMaybe E src p) (hts : ∀ t ∈ ts, Reads E src t)
    (hm : m ∈ withPrevious p ts) : ReadsBoth E src m := by
  induction ts generalizing p with
  | nil => exact absurd hm List.not_mem_nil
  | cons t ts ih =>
    obtain ⟨ht, hts⟩ := List.forall_mem_cons.1 hts
    rcases List.mem_cons.1 hm with rfl | hm
    · exact ⟨hp, ht⟩
    · exact ih (readsMaybe_some ht) hts hm

namespace Reads

theorem members (h : Reads E src t) : FailsOnly E (t.members src) := by
  rw [SyntaxTree.members]
  split
  · exact .ok []
  · next b hb =>
    refine .mapM fun m hm ↦ ?_
    have hm := readsBoth_of_mem_membersOf readsMaybe_none (fun c hc ↦ (h.find? _ b hb).child hc) hm
    exact hm.node.member hm.before

theorem typeDecl (h : Reads E src t) (hb : ReadsMaybe E src before) (k : String) :
    FailsOnly E (t.typeDecl src before k) :=
  (h.fieldString _).bind fun _ ↦ ((h.fieldString _).map _).bind fun _ ↦
    (h.header hb _ _).bind fun _ ↦ h.superclass?.bind fun _ ↦ h.interfaces.bind fun _ ↦
    h.members.map _

theorem packageNode? (h : Reads E src t) : ReadsMaybe E src t.packageNode? := by
  intro c hc
  obtain ⟨p, hp, hc⟩ := List.exists_of_findSome?_eq_some hc
  exact (h.filter hp).filter (List.mem_of_find?_eq_some hc)

theorem imports (h : Reads E src t) : FailsOnly E (t.imports src) :=
  .mapM fun _ hc ↦ (h.filter hc).text.map _

end Reads

/-- What an outline fails with is what the text of a node fails with. -/
theorem Reads.ofTree {src : String} {root : SyntaxTree} (h : Reads E src.toList root)
    (path : Option String) : FailsOnly E (CompilationUnit.ofTree src root path) := by
  refine (FailsOnly.mapM_option fun p hp ↦ (h.packageNode? p hp).string).bind fun _ ↦
    h.imports.bind fun _ ↦ (FailsOnly.filterMapM fun m hm ↦ .mapM_option fun k _ ↦ ?_).map _
  have hm := readsBoth_of_mem_withPrevious readsMaybe_none (fun c hc ↦ h.child hc) hm
  exact hm.node.typeDecl hm.before k

theorem Fits.reads (h : Fits src t) : Reads (fun _ ↦ False) src t := by
  induction h with
  | node hstart hstop _ ih =>
    refine .node (fun e he ↦ ?_) ih
    have hok := slice_eq_ok_iff.2 ⟨fun _ ↦ ⟨.inl hstart, .inl hstop⟩, rfl⟩
    rw [hok] at he
    cases he

/-- A tree that cuts no character has an outline. -/
theorem exists_ofTree {src : String} {root : SyntaxTree} (h : Fits src.toList root)
    (path : Option String) : ∃ u, CompilationUnit.ofTree src root path = .ok u :=
  (h.reads.ofTree path).succeeds

end SyntaxTree

end JavaOutline
