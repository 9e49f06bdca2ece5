import JavaOutline.Tree.Basic
import Mathlib.Data.List.Basic

/-! # Places in a tree, and the walk through a body

A node of a tree is known by its place, the way up from it.  The outline of a tree hands each
declaration the node before it; here these nodes are found by their places, so that nodes of the
same shape stay apart.

The members of a body are those that a walk from left to right meets when it goes into each group
of members, at any depth, and into nothing else (`membersOf_eq_walk`). -/

namespace JavaOutline

/-- The way up from a node: its index among the children of its parent, then the parent's place. -/
abbrev Place := List Nat

namespace Place

/-- The place of the sibling immediately before. -/
def before? : Place → Option Place
  | (i + 1) :: π => some (i :: π)
  | _ => none

/-- A node stands immediately before at most one other. -/
theorem eq_of_before?_eq {π ρ σ : Place} (h : before? π = some σ) (h' : before? ρ = some σ) :
    π = ρ := by
  match π, ρ with
  | (i + 1) :: π, (j + 1) :: ρ =>
    obtain ⟨rfl, rfl⟩ := List.cons.inj ((Option.some.inj h).trans (Option.some.inj h').symm)
    rfl

/-- Places in the order of the text: read from the root on, the first index that differs decides,
and a node comes before what is inside of it. -/
def Precedes (π ρ : Place) : Prop := π.reverse < ρ.reverse

/-- A node comes before everything inside of it. -/
theorem precedes_of_isSuffix {π ρ : Place} {i : Nat} (h : i :: π <:+ ρ) : Precedes π ρ := by
  obtain ⟨σ, rfl⟩ := h
  rw [Precedes, List.reverse_append, List.reverse_cons, List.append_assoc]
  calc π.reverse = π.reverse ++ [] := (List.append_nil _).symm
    _ < π.reverse ++ ([i] ++ σ.reverse) := List.append_left_lt (List.nil_lt_cons _ _)

/-- What is inside of a node comes before what is inside of a later sibling. -/
theorem precedes_of_lt {π ρ σ : Place} {i j : Nat} (hi : i :: π <:+ ρ) (hj : j :: π <:+ σ)
    (h : i < j) : Precedes ρ σ := by
  obtain ⟨ρ, rfl⟩ := hi
  obtain ⟨σ, rfl⟩ := hj
  simp only [Precedes, List.reverse_append, List.reverse_cons, List.append_assoc]
  exact List.append_left_lt (List.cons_lt_cons_iff.2 (.inl h))

end Place

open Place

namespace SyntaxTree

/-- The node at a place. -/
def at? (root : SyntaxTree) : Place → Option SyntaxTree
  | [] => some root
  | i :: π => (root.at? π).bind (·.children[i]?)

/-- The node immediately before a place. -/
def nodeBefore? (root : SyntaxTree) (π : Place) : Option SyntaxTree := π.before?.bind root.at?

/-- A node together with its place. -/
abbrev Site := Place × SyntaxTree

variable {root : SyntaxTree} {π : Place}

theorem at?_cons {t : SyntaxTree} (h : root.at? π = some t) (i : Nat) :
    root.at? (i :: π) = t.children[i]? := by
  rw [at?, h, Option.bind_some]

/-- What is passed on to children holds of every node. -/
theorem forall_at? {P : SyntaxTree → Prop} (h : P root) (hc : ∀ t, P t → ∀ c ∈ t.children, P c)
    {t : SyntaxTree} (ht : root.at? π = some t) : P t := by
  induction π generalizing t with
  | nil => exact Option.some.inj ht ▸ h
  | cons i π ih =>
    obtain ⟨p, hp, ht⟩ := Option.bind_eq_some_iff.1 ht
    exact hc p (ih hp) t (List.mem_of_getElem? ht)

/-! ## Children -/

/-- Children with their places, the first of which has index `i`. -/
def sitesFrom (π : Place) (i : Nat) : List SyntaxTree → List Site
  | [] => []
  | c :: cs => (i :: π, c) :: sitesFrom π (i + 1) cs

/-- The children of a node with their places. -/
def childSites (s : Site) : List Site := sitesFrom s.1 0 s.2.children

@[simp] theorem map_snd_sitesFrom (π : Place) (i : Nat) (cs : List SyntaxTree) :
    (sitesFrom π i cs).map Prod.snd = cs := by
  induction cs generalizing i with
  | nil => rfl
  | cons c cs ih => rw [sitesFrom, List.map_cons, ih]

@[simp] theorem map_snd_childSites (s : Site) : (childSites s).map Prod.snd = s.2.children :=
  map_snd_sitesFrom s.1 0 s.2.children

theorem mem_sitesFrom {i : Nat} {cs : List SyntaxTree} {s : Site} (h : s ∈ sitesFrom π i cs) :
    ∃ j, s.1 = (i + j) :: π ∧ cs[j]? = some s.2 := by
  induction cs generalizing i with
  | nil => exact absurd h List.not_mem_nil
  | cons c cs ih =>
    rcases List.mem_cons.1 h with rfl | h
    · exact ⟨0, rfl, rfl⟩
    · obtain ⟨j, hj, hs⟩ := ih h
      exact ⟨j + 1, by rw [hj, Nat.add_right_comm, Nat.add_assoc], hs⟩

theorem at?_of_mem_childSites {s c : Site} (h : root.at? s.1 = some s.2) (hc : c ∈ childSites s) :
    root.at? c.1 = some c.2 := by
  obtain ⟨j, hj, hs⟩ := mem_sitesFrom hc
  rw [hj, at?_cons h, Nat.zero_add, hs]

/-! The node before the first of some children is known; before each of the others stands the one
that was passed last. -/

variable {t : SyntaxTree} {i : Nat} {cs : List SyntaxTree}

theorem nodeBefore?_zero (root : SyntaxTree) (π : Place) : root.nodeBefore? (0 :: π) = none := rfl

theorem nodeBefore?_succ (h : root.at? π = some t) (i : Nat) :
    root.nodeBefore? ((i + 1) :: π) = t.children[i]? := at?_cons h i

theorem getElem?_of_drop_eq_cons {α : Type} {a : α} {as bs : List α} {i : Nat}
    (h : as.drop i = a :: bs) : as[i]? = some a ∧ as.drop (i + 1) = bs := by
  refine ⟨?_, ?_⟩
  · rw [← List.head?_drop, h, List.head?_cons]
  · rw [← List.tail_drop, h, List.tail_cons]

theorem withPrevious_eq_sitesFrom (h : root.at? π = some t) (hc : t.children.drop i = cs) :
    withPrevious (root.nodeBefore? (i :: π)) cs =
      (sitesFrom π i cs).map fun s ↦ (root.nodeBefore? s.1, s.2) := by
  induction cs generalizing i with
  | nil => rfl
  | cons c cs ih =>
    obtain ⟨hi, hd⟩ := getElem?_of_drop_eq_cons hc
    rw [withPrevious, sitesFrom, List.map_cons, ← ih hd, nodeBefore?_succ h, hi]

/-! ## The walk -/

/-- The node stands for a group of members. -/
def isGroup (t : SyntaxTree) : Bool := t.kind == "enum_body_declarations"

mutual

/-- The nodes that a walk meets at one node: the node, and if it is a group those inside. -/
def walkNode (π : Place) : SyntaxTree → List Site
  | .node l cs =>
    (π, .node l cs) :: if l.kind = "enum_body_declarations" then walkFrom π 0 cs else []

/-- The nodes that a walk meets from left to right, the first of which has index `i`. -/
def walkFrom (π : Place) (i : Nat) : List SyntaxTree → List Site
  | [] => []
  | c :: cs => walkNode (i :: π) c ++ walkFrom π (i + 1) cs

end

/-- The nodes that a walk through a body meets. -/
def walk (body : Site) : List Site := walkFrom body.1 0 body.2.children

mutual

theorem at?_of_mem_walkNode {root : SyntaxTree} {π : Place} {t : SyntaxTree} {s : Site}
    (h : root.at? π = some t) (hs : s ∈ walkNode π t) : root.at? s.1 = some s.2 :=
  match t with
  | .node l cs => by
    rw [walkNode] at hs
    rcases List.mem_cons.1 hs with rfl | hs
    · exact h
    · split at hs
      · exact at?_of_mem_walkFrom h List.drop_zero hs
      · exact absurd hs List.not_mem_nil

theorem at?_of_mem_walkFrom {root : SyntaxTree} {π : Place} {t : SyntaxTree} {i : Nat}
    {cs : List SyntaxTree} {s : Site} (h : root.at? π = some t) (hc : t.children.drop i = cs)
    (hs : s ∈ walkFrom π i cs) : root.at? s.1 = some s.2 :=
  match cs with
  | [] => absurd hs List.not_mem_nil
  | c :: cs => by
    obtain ⟨hi, hd⟩ := getElem?_of_drop_eq_cons hc
    rw [walkFrom] at hs
    rcases List.mem_append.1 hs with hs | hs
    · exact at?_of_mem_walkNode ((at?_cons h i).trans hi) hs
    · exact at?_of_mem_walkFrom h hd hs

end

theorem at?_of_mem_walk {root : SyntaxTree} {b s : Site} (h : root.at? b.1 = some b.2)
    (hs : s ∈ walk b) : root.at? s.1 = some s.2 := at?_of_mem_walkFrom h List.drop_zero hs

mutual

theorem membersOfNode_eq_walkNode {root : SyntaxTree} {π : Place} {t : SyntaxTree}
    (h : root.at? π = some t) :
    membersOfNode (root.nodeBefore? π) t =
      ((walkNode π t).filter (!·.2.isGroup)).map fun s ↦ (root.nodeBefore? s.1, s.2) :=
  match t with
  | .node l cs => by
    rw [membersOfNode, walkNode]
    split
    · next hl =>
      have hg : isGroup (.node l cs) = true := by simp [isGroup, kind, hl]
      rw [List.filter_cons_of_neg (by simp [hg]), ← nodeBefore?_zero root π]
      exact membersOf_eq_walkFrom h List.drop_zero
    · next hl =>
      have hg : isGroup (.node l cs) = false := by simp [isGroup, kind, hl]
      rw [List.filter_cons_of_pos (by simp [hg]), List.filter_nil, List.map_singleton]

theorem membersOf_eq_walkFrom {root : SyntaxTree} {π : Place} {t : SyntaxTree} {i : Nat}
    {cs : List SyntaxTree} (h : root.at? π = some t) (hc : t.children.drop i = cs) :
    membersOf (root.nodeBefore? (i :: π)) cs =
      ((walkFrom π i cs).filter (!·.2.isGroup)).map fun s ↦ (root.nodeBefore? s.1, s.2) :=
  match cs with
  | [] => by rw [membersOf, walkFrom, List.filter_nil, List.map_nil]
  | c :: cs => by
    obtain ⟨hi, hd⟩ := getElem?_of_drop_eq_cons hc
    rw [membersOf, walkFrom, List.filter_append, List.map_append,
      membersOfNode_eq_walkNode ((at?_cons h i).trans hi), ← membersOf_eq_walkFrom h hd,
      nodeBefore?_succ h, hi]

end

/-- The nodes that a walk through a body comes to: its children, and those of a group it has come
to. -/
inductive Met (body : Site) : Site → Prop
  | child {s : Site} (h : s ∈ childSites body) : Met body s
  | inside {g s : Site} (h : Met body g) (hg : g.2.isGroup) (hs : s ∈ childSites g) : Met body s

mutual

theorem met_of_mem_walkNode {body : Site} {π : Place} {t : SyntaxTree} {s : Site}
    (h : Met body (π, t)) (hs : s ∈ walkNode π t) : Met body s :=
  match t with
  | .node l cs => by
    rw [walkNode] at hs
    rcases List.mem_cons.1 hs with rfl | hs
    · exact h
    · split at hs
      · next hl =>
        exact met_of_mem_walkFrom (fun c hc ↦ .inside h (by simp [isGroup, kind, hl]) hc) hs
      · exact absurd hs List.not_mem_nil

theorem met_of_mem_walkFrom {body : Site} {π : Place} {i : Nat} {cs : List SyntaxTree} {s : Site}
    (h : ∀ c ∈ sitesFrom π i cs, Met body c) (hs : s ∈ walkFrom π i cs) : Met body s :=
  match cs with
  | [] => absurd hs List.not_mem_nil
  | c :: cs => by
    rw [walkFrom] at hs
    obtain ⟨hc, hcs⟩ := List.forall_mem_cons.1 h
    rcases List.mem_append.1 hs with hs | hs
    · exact met_of_mem_walkNode hc hs
    · exact met_of_mem_walkFrom hcs hs

end

theorem mem_walkNode_self (π : Place) (t : SyntaxTree) : (π, t) ∈ walkNode π t := by
  cases t with
  | node l cs => rw [walkNode]; exact List.mem_cons_self

theorem mem_walkFrom_of_mem_sitesFrom {i : Nat} {s : Site} (h : s ∈ sitesFrom π i cs) :
    s ∈ walkFrom π i cs := by
  induction cs generalizing i with
  | nil => exact absurd h List.not_mem_nil
  | cons c cs ih =>
    rw [walkFrom]
    rcases List.mem_cons.1 h with rfl | h
    · exact List.mem_append_left _ (mem_walkNode_self _ _)
    · exact List.mem_append_right _ (ih h)

mutual

theorem mem_walkNode_of_isGroup {π : Place} {t : SyntaxTree} {g s : Site} (h : g ∈ walkNode π t)
    (hg : g.2.isGroup) (hs : s ∈ childSites g) : s ∈ walkNode π t :=
  match t with
  | .node l cs => by
    rw [walkNode] at h ⊢
    refine List.mem_cons_of_mem _ ?_
    rcases List.mem_cons.1 h with rfl | h
    · rw [if_pos (by simpa [isGroup, kind] using hg)]
      exact mem_walkFrom_of_mem_sitesFrom hs
    · split at h
      · next hl => exact if_pos hl ▸ mem_walkFrom_of_isGroup h hg hs
      · exact absurd h List.not_mem_nil

theorem mem_walkFrom_of_isGroup {π : Place} {i : Nat} {cs : List SyntaxTree} {g s : Site}
    (h : g ∈ walkFrom π i cs) (hg : g.2.isGroup) (hs : s ∈ childSites g) :
    s ∈ walkFrom π i cs :=
  match cs with
  | [] => absurd h List.not_mem_nil
  | c :: cs => by
    rw [walkFrom] at h ⊢
    rcases List.mem_append.1 h with h | h
    · exact List.mem_append_left _ (mem_walkNode_of_isGroup h hg hs)
    · exact List.mem_append_right _ (mem_walkFrom_of_isGroup h hg hs)

end

/-- The walk meets what can be come to, and nothing else. -/
theorem mem_walk_iff {b s : Site} : s ∈ walk b ↔ Met b s := by
  refine ⟨met_of_mem_walkFrom fun c hc ↦ .child hc, fun h ↦ ?_⟩
  induction h with
  | child h => exact mem_walkFrom_of_mem_sitesFrom h
  | inside _ hg hs ih => exact mem_walkFrom_of_isGroup ih hg hs

mutual

theorem isSuffix_of_mem_walkNode {π : Place} {t : SyntaxTree} {s : Site}
    (h : s ∈ walkNode π t) : π <:+ s.1 :=
  match t with
  | .node l cs => by
    rw [walkNode] at h
    rcases List.mem_cons.1 h with rfl | h
    · exact List.suffix_rfl
    · split at h
      · obtain ⟨j, -, hj⟩ := isSuffix_of_mem_walkFrom h
        exact (List.suffix_cons j π).trans hj
      · exact absurd h List.not_mem_nil

theorem isSuffix_of_mem_walkFrom {π : Place} {i : Nat} {cs : List SyntaxTree} {s : Site}
    (h : s ∈ walkFrom π i cs) : ∃ j, i ≤ j ∧ j :: π <:+ s.1 :=
  match cs with
  | [] => absurd h List.not_mem_nil
  | c :: cs => by
    rw [walkFrom] at h
    rcases List.mem_append.1 h with h | h
    · exact ⟨i, Nat.le_refl i, isSuffix_of_mem_walkNode h⟩
    · obtain ⟨j, hij, hj⟩ := isSuffix_of_mem_walkFrom h
      exact ⟨j, Nat.le_of_succ_le hij, hj⟩

end

mutual

theorem pairwise_walkNode (π : Place) (t : SyntaxTree) :
    (walkNode π t).Pairwise fun s s' ↦ Precedes s.1 s'.1 :=
  match t with
  | .node l cs => by
    rw [walkNode]
    split
    · refine List.pairwise_cons.2 ⟨fun s hs ↦ ?_, pairwise_walkFrom π 0 cs⟩
      obtain ⟨j, -, hj⟩ := isSuffix_of_mem_walkFrom hs
      exact precedes_of_isSuffix hj
    · exact List.pairwise_singleton _ _

theorem pairwise_walkFrom (π : Place) (i : Nat) (cs : List SyntaxTree) :
    (walkFrom π i cs).Pairwise fun s s' ↦ Precedes s.1 s'.1 :=
  match cs with
  | [] => .nil
  | c :: cs => by
    rw [walkFrom]
    refine List.pairwise_append.2
      ⟨pairwise_walkNode _ c, pairwise_walkFrom π (i + 1) cs, fun s hs s' hs' ↦ ?_⟩
    obtain ⟨j, hij, hj⟩ := isSuffix_of_mem_walkFrom hs'
    exact precedes_of_lt (isSuffix_of_mem_walkNode hs) hj hij

end

/-- The walk goes from left to right. -/
theorem pairwise_walk (b : Site) : (walk b).Pairwise fun s s' ↦ Precedes s.1 s'.1 :=
  pairwise_walkFrom b.1 0 b.2.children

/-- The members of a body are the nodes met that are no groups, each with the node before it. -/
theorem membersOf_eq_walk {b : Site} (h : root.at? b.1 = some b.2) :
    membersOf none b.2.children =
      ((walk b).filter (!·.2.isGroup)).map fun s ↦ (root.nodeBefore? s.1, s.2) :=
  membersOf_eq_walkFrom h List.drop_zero

end SyntaxTree

end JavaOutline
