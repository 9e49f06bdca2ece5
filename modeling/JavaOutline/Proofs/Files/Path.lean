import JavaOutline.Files.Path
import JavaOutline.Proofs.Text.Lines

/-! # Paths and their texts

The text of a path reads as that path (`Path.ofString_text`), so paths can be handed on as texts.
What lies below a directory is what is joined to it. -/

namespace JavaOutline.Path

open Text

/-! ## Reading what is shown -/

/-- What a segment of a path that is read looks like: it names something and holds no slash. -/
def IsSegment (s : String) : Prop := s ≠ "" ∧ s ≠ "." ∧ '/' ∉ s.toList

instance (s : String) : Decidable (IsSegment s) :=
  inferInstanceAs (Decidable (_ ∧ _ ∧ _))

theorem isSegment_toList {s : String} (hs : IsSegment s) : isSegment s.toList = true := by
  obtain ⟨hne, hdot, -⟩ := hs
  have hdot : s.toList ≠ ['.'] := fun h ↦ hdot (String.toList_inj.1 h)
  simp [isSegment, hne, hdot]

/-- Reading a path leaves segments of this kind. -/
theorem isSegment_of_mem_ofString {s text : String} (h : s ∈ (ofString text).segments) :
    IsSegment s := by
  obtain ⟨l, hl, rfl⟩ := List.mem_map.1 h
  obtain ⟨hl, hs⟩ := List.mem_filter.1 hl
  have hslash := notMem_of_mem_splitAt hl
  refine ⟨?_, ?_, by rwa [String.toList_ofList]⟩
  · rintro h
    have h : l = [] := by simpa using congrArg String.toList h
    rw [h] at hs
    cases hs
  · rintro h
    have h : l = ['.'] := by simpa using congrArg String.toList h
    rw [h] at hs
    cases hs

theorem rootOf_append (r : Root) {s : List Char} (h : s.head? ≠ some '/') :
    rootOf ((Root.text r).toList ++ s) = r := by
  cases s with
  | nil => cases r <;> rfl
  | cons c s =>
    have hc : c ≠ '/' := fun hc ↦ h (congrArg some hc)
    cases r with
    | relative => simp [Root.text, rootOf, hc]
    | slash => simp [Root.text, rootOf, hc]
    | doubleSlash => simp [Root.text, rootOf, hc]

theorem segments_ofString_append (r : Root) (s : List Char) :
    (splitAt '/' ((Root.text r).toList ++ s)).filter isSegment =
      (splitAt '/' s).filter isSegment := by
  have hskip (s : List Char) : (splitAt '/' ('/' :: s)).filter isSegment =
      (splitAt '/' s).filter isSegment := by
    rw [splitAt_cons_self, List.filter_cons_of_neg (by decide)]
  cases r with
  | relative => rfl
  | slash => exact hskip s
  | doubleSlash => exact (hskip ('/' :: s)).trans (hskip s)

theorem segments_splitAt {ss : List String} (h : ∀ s ∈ ss, IsSegment s) :
    ((splitAt '/' ("/".intercalate ss).toList).filter isSegment).map String.ofList = ss := by
  rw [String.toList_intercalate, splitAt_eq_splitOn]
  change ((List.splitOn '/' (['/'].intercalate (ss.map String.toList))).filter isSegment).map _ = ss
  cases ss with
  | nil => rfl
  | cons s ss =>
    have hslash : ∀ l ∈ (s :: ss).map String.toList, '/' ∉ l := by
      rw [List.forall_mem_map]
      exact fun s hs ↦ (h s hs).2.2
    have hkeep : ∀ l ∈ (s :: ss).map String.toList, isSegment l = true := by
      rw [List.forall_mem_map]
      exact fun s hs ↦ isSegment_toList (h s hs)
    rw [List.splitOn_intercalate _ hslash (by simp), List.filter_eq_self.2 hkeep, List.map_map]
    simp

theorem head?_intercalate {ss : List String} (h : ∀ s ∈ ss, IsSegment s) :
    ("/".intercalate ss).toList.head? ≠ some '/' := by
  rw [String.toList_intercalate]
  cases ss with
  | nil => exact nofun
  | cons s ss =>
    obtain ⟨hne, -, hslash⟩ := h s List.mem_cons_self
    have hhead (l : List Char) : (s.toList ++ l).head? ≠ some '/' := by
      obtain ⟨c, r, hc⟩ := List.exists_cons_of_ne_nil (fun h ↦ hne (String.toList_inj.1 h))
      rw [hc] at hslash ⊢
      intro hl
      exact hslash (Option.some.inj hl ▸ List.mem_cons_self)
    cases ss with
    | nil => simpa using hhead []
    | cons t ss =>
      rw [List.map_cons, List.map_cons, List.intercalate_cons_cons, List.append_assoc]
      exact hhead _

/-- What is shown of a path reads as that path. -/
theorem ofString_text {p : Path} (h : ∀ s ∈ p.segments, IsSegment s) : ofString p.text = p := by
  obtain ⟨r, ss⟩ := p
  have hread : ofString (Root.text r ++ "/".intercalate ss) = ⟨r, ss⟩ := by
    rw [ofString, String.toList_append, rootOf_append r (head?_intercalate h),
      segments_ofString_append, segments_splitAt h]
  rw [text.eq_def]
  split
  next hr hs =>
    change r = .relative at hr
    change ss = [] at hs
    rw [hr, hs]
    rfl
  next => exact hread

/-! ## Below a directory -/

/-- The path lies below the directory and is not the directory itself. -/
def IsBelow (dir p : Path) : Prop :=
  dir.root = p.root ∧ dir.segments <+: p.segments ∧ dir.segments ≠ p.segments

instance (dir p : Path) : Decidable (dir.IsBelow p) :=
  inferInstanceAs (Decidable (_ ∧ _ ∧ _))

theorem join_of_relative {p q : Path} (h : q.root = .relative) :
    p.join q = { p with segments := p.segments ++ q.segments } := by
  rw [join, h]

theorem join_join {p q r : Path} (hq : q.root = .relative) (hr : r.root = .relative) :
    (p.join q).join r = p.join (q.join r) := by
  rw [join_of_relative hr, join_of_relative hq, join_of_relative hr, join_of_relative]
  · exact congrArg (Path.mk p.root) (List.append_assoc _ _ _)
  · exact hq

theorem parent_join {p q : Path} (hq : q.root = .relative) (hne : q.segments ≠ []) :
    (p.join q).parent = p.join q.parent := by
  have hparent : q.parent.root = .relative := hq
  rw [join_of_relative hq, join_of_relative hparent]
  exact congrArg (Path.mk p.root) (List.dropLast_append_of_ne_nil hne)

/-- The paths below a directory are those that lead on from it. -/
theorem isBelow_iff {dir p : Path} :
    dir.IsBelow p ↔ ∃ r : Path, r.root = .relative ∧ r.segments ≠ [] ∧ p = dir.join r := by
  constructor
  · rintro ⟨hroot, ⟨ss, hss⟩, hne⟩
    refine ⟨{ segments := ss }, rfl, ?_, ?_⟩
    · rintro rfl
      exact hne ((List.append_nil _).symm.trans hss)
    · rw [join_of_relative rfl, hroot, hss]
  · rintro ⟨r, hr, hne, rfl⟩
    rw [join_of_relative hr]
    exact ⟨rfl, List.prefix_append _ _, fun h ↦ hne (List.self_eq_append_right.1 h)⟩

theorem isBelow_join {dir r : Path} (hr : r.root = .relative) :
    dir.IsBelow (dir.join r) ↔ r.segments ≠ [] := by
  rw [join_of_relative hr]
  refine ⟨fun h hnil ↦ h.2.2 ?_, fun hne ↦ ⟨rfl, List.prefix_append _ _, fun h ↦ hne ?_⟩⟩
  · rw [hnil, List.append_nil]
  · exact List.self_eq_append_right.1 h

/-- What leads on from a directory is what is found below it. -/
theorem below?_join (dir : Path) {r : Path} (hr : r.root = .relative) :
    dir.below? (dir.join r) = some r.segments := by
  rw [join_of_relative hr, below?, if_pos ⟨rfl, List.isPrefixOf_iff_prefix.2 ⟨_, rfl⟩⟩,
    List.drop_left]

/-! ## Suffixes -/

end JavaOutline.Path
