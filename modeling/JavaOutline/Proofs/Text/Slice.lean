import JavaOutline.Text.Slice
import Mathlib.Data.List.Basic

/-! # Slices: the laws

What a slice gives is part of the text, at the offset asked for.  There is one exactly where no
character is cut, and it consists of the characters between the positions of its ends
(`slice_eq_ok_iff`). -/

namespace JavaOutline.Text

@[simp] theorem byteLength_nil : byteLength [] = 0 := rfl

@[simp] theorem byteLength_cons (c : Char) (s : List Char) :
    byteLength (c :: s) = c.utf8Size + byteLength s := rfl

@[simp] theorem byteLength_append (s t : List Char) :
    byteLength (s ++ t) = byteLength s + byteLength t := by
  induction s with
  | nil => simp
  | cons c s ih => simp [ih, Nat.add_assoc]

theorem eq_nil_of_byteLength_eq_zero {s : List Char} (h : byteLength s = 0) : s = [] := by
  cases s with
  | nil => rfl
  | cons c s =>
    have hc := c.utf8Size_pos
    rw [byteLength_cons] at h
    omega

/-- Only one start of a text ends at an offset. -/
theorem eq_of_byteLength_eq {s p q : List Char} (hp : p <+: s) (hq : q <+: s)
    (h : byteLength p = byteLength q) : p = q := by
  rcases List.prefix_or_prefix_of_prefix hp hq with ⟨r, rfl⟩ | ⟨r, rfl⟩
  · rw [eq_nil_of_byteLength_eq_zero (s := r) (by rw [byteLength_append] at h; omega),
      List.append_nil]
  · rw [eq_nil_of_byteLength_eq_zero (s := r) (by rw [byteLength_append] at h; omega),
      List.append_nil]

/-- What is left behind an offset starts there, unless nothing is left. -/
theorem exists_of_dropBytes? {s r : List Char} {n : Nat} (h : dropBytes? s n = some r)
    (hr : r ≠ []) : ∃ pre, s = pre ++ r ∧ byteLength pre = n := by
  fun_induction dropBytes? s n with
  | case1 s => exact ⟨[], by simpa using h, rfl⟩
  | case2 n => exact absurd (Option.some.inj h).symm hr
  | case3 c s n hc ih =>
    obtain ⟨pre, rfl, hp⟩ := ih h
    exact ⟨c :: pre, rfl, by rw [byteLength_cons, hp]; omega⟩
  | case4 => exact absurd h nofun

theorem isPrefix_of_takeBytes? {s r : List Char} {n : Nat} (h : takeBytes? s n = some r) :
    r <+: s := by
  fun_induction takeBytes? s n generalizing r with
  | case1 s => exact Option.some.inj h ▸ List.nil_prefix
  | case2 n => exact Option.some.inj h ▸ List.nil_prefix
  | case3 c s n hc ih =>
    obtain ⟨r, hr, rfl⟩ := Option.map_eq_some_iff.1 h
    exact List.cons_prefix_cons.2 ⟨rfl, ih hr⟩
  | case4 => exact absurd h nofun

/-- A slice that is not empty is the part of the text that starts at the first offset. -/
theorem exists_of_slice {s t : List Char} {start stop : Nat} (h : slice s start stop = .ok t)
    (ht : t ≠ []) : ∃ pre post, s = pre ++ t ++ post ∧ byteLength pre = start := by
  rw [slice] at h
  split at h
  · exact absurd (Except.ok.inj h).symm ht
  · split at h
    · next u hu =>
      obtain rfl := Except.ok.inj h
      obtain ⟨r, hr, hu⟩ := Option.bind_eq_some_iff.1 hu
      obtain ⟨post, rfl⟩ := isPrefix_of_takeBytes? hu
      obtain ⟨pre, rfl, hp⟩ := exists_of_dropBytes? hr fun hn ↦ ht (List.append_eq_nil_iff.1 hn).1
      exact ⟨pre, post, (List.append_assoc _ _ _).symm, hp⟩
    · exact absurd h nofun

/-! ## Boundaries -/

/-- The offset is at an end of the text or between two characters. -/
def IsBoundary (s : List Char) (n : Nat) : Prop := ∃ pre post, s = pre ++ post ∧ byteLength pre = n

theorem isBoundary_of_take {s : List Char} {k n : Nat} (h : byteLength (s.take k) = n) :
    IsBoundary s n :=
  ⟨s.take k, s.drop k, (List.take_append_drop k s).symm, h⟩

/-- The offset is on a boundary of the text, or past its end. -/
def CutsNone (s : List Char) (n : Nat) : Prop := IsBoundary s n ∨ byteLength s ≤ n

theorem cutsNone_zero (s : List Char) : CutsNone s 0 := .inl ⟨[], s, rfl, rfl⟩

theorem cutsNone_nil (n : Nat) : CutsNone [] n := .inr (Nat.zero_le n)

variable {c : Char} {s : List Char} {n : Nat}

/-- Behind the first character a text goes on. -/
theorem cutsNone_cons (h : c.utf8Size ≤ n) :
    CutsNone (c :: s) n ↔ CutsNone s (n - c.utf8Size) := by
  have hc := c.utf8Size_pos
  refine or_congr ⟨?_, ?_⟩ ?_
  · rintro ⟨pre, post, hs, hn⟩
    cases pre with
    | nil =>
      rw [byteLength_nil] at hn
      omega
    | cons d pre =>
      obtain ⟨rfl, rfl⟩ := List.cons.inj hs
      exact ⟨pre, post, rfl, by rw [byteLength_cons] at hn; omega⟩
  · rintro ⟨pre, post, rfl, hn⟩
    exact ⟨c :: pre, post, rfl, by rw [byteLength_cons]; omega⟩
  · rw [byteLength_cons]
    omega

/-- An offset before the end of the first character cuts it, unless it is the start. -/
theorem not_cutsNone (h : n < c.utf8Size) (hn : n ≠ 0) : ¬ CutsNone (c :: s) n := by
  rintro (⟨pre, post, hs, hp⟩ | hle)
  · cases pre with
    | nil => exact hn hp.symm
    | cons d pre =>
      obtain ⟨rfl, -⟩ := List.cons.inj hs
      rw [byteLength_cons] at hp
      omega
  · rw [byteLength_cons] at hle
    omega

/-! ## Positions -/

/-- The position of an offset: the number of characters that end there or before. -/
def position : List Char → Nat → Nat
  | [], _ => 0
  | c :: s, n => if c.utf8Size ≤ n then position s (n - c.utf8Size) + 1 else 0

/-- The characters from the position of one offset to that of another. -/
def between (s : List Char) (start stop : Nat) : List Char :=
  (s.take (position s stop)).drop (position s start)

theorem position_zero (s : List Char) : position s 0 = 0 := by
  cases s with
  | nil => rfl
  | cons c s => rw [position, if_neg (Nat.not_le.2 c.utf8Size_pos)]

theorem position_le_position (s : List Char) {m n : Nat} (h : m ≤ n) :
    position s m ≤ position s n := by
  induction s generalizing m n with
  | nil => exact Nat.le_refl 0
  | cons c s ih =>
    rw [position, position]
    split
    next hm =>
      rw [if_pos (Nat.le_trans hm h)]
      exact Nat.succ_le_succ (ih (Nat.sub_le_sub_right h _))
    next => exact Nat.zero_le _

theorem between_eq_nil {start stop : Nat} (h : stop ≤ start) : between s start stop = [] := by
  rw [between, List.drop_eq_nil_iff]
  exact Nat.le_trans (List.length_take_le _ s) (position_le_position s h)

theorem takeBytes?_eq_some_iff {r : List Char} :
    takeBytes? s n = some r ↔ CutsNone s n ∧ r = s.take (position s n) := by
  fun_induction takeBytes? s n generalizing r with
  | case1 s => simp [cutsNone_zero, position_zero, eq_comm]
  | case2 n => simp [cutsNone_nil, eq_comm]
  | case3 c s n hc ih =>
    simp only [Option.map_eq_some_iff, ih, cutsNone_cons hc, position, if_pos hc]
    constructor
    · rintro ⟨r, ⟨hcut, rfl⟩, rfl⟩
      exact ⟨hcut, rfl⟩
    · rintro ⟨hcut, rfl⟩
      exact ⟨_, ⟨hcut, rfl⟩, rfl⟩
  | case4 c s n hc => simp [not_cutsNone (s := s) (Nat.not_le.1 hc) (Nat.succ_ne_zero n)]

/-- A slice ends and starts where no character is cut, and consists of the characters between. -/
theorem slice_eq_ok_iff {start stop : Nat} {t : List Char} :
    slice s start stop = .ok t ↔
      (start < stop → CutsNone s start ∧ CutsNone s stop) ∧ t = between s start stop := by
  have hbind (h : start < stop) : (dropBytes? s start).bind (takeBytes? · (stop - start)) = some t ↔
      (CutsNone s start ∧ CutsNone s stop) ∧ t = between s start stop := by
    fun_induction dropBytes? s start generalizing stop with
    | case1 s =>
      simp [takeBytes?_eq_some_iff, cutsNone_zero, between, position_zero]
    | case2 n => simp [takeBytes?_eq_some_iff, cutsNone_nil, between]
    | case3 c s n hc ih =>
      have hstop : c.utf8Size ≤ stop := Nat.le_trans hc (Nat.le_of_lt h)
      have hsub : stop - (n + 1) = stop - c.utf8Size - (n + 1 - c.utf8Size) := by omega
      rw [hsub, ih (by omega), cutsNone_cons hc, cutsNone_cons hstop, between, between, position,
        position, if_pos hc, if_pos hstop, List.take_succ_cons, List.drop_succ_cons]
    | case4 c s n hc => simp [not_cutsNone (s := s) (Nat.not_le.1 hc) (Nat.succ_ne_zero n)]
  rw [slice]
  split
  next hle =>
    rw [between_eq_nil hle]
    exact ⟨fun h ↦ ⟨fun hlt ↦ absurd hlt (Nat.not_lt.2 hle), (Except.ok.inj h).symm⟩,
      fun h ↦ h.2 ▸ rfl⟩
  next hlt =>
    rw [Nat.not_le] at hlt
    rw [forall_prop_of_true hlt, ← hbind hlt]
    split
    next hr =>
      rw [hr]
      exact ⟨fun h ↦ congrArg some (Except.ok.inj h), fun h ↦ congrArg _ (Option.some.inj h)⟩
    next hr =>
      rw [hr]
      exact ⟨nofun, nofun⟩

/-- What a slice fails with is the extent that was asked for. -/
theorem eq_of_slice_eq_error {start stop : Nat} {e : CutCharacter}
    (h : slice s start stop = .error e) : e = ⟨start, stop⟩ := by
  rw [slice] at h
  split at h
  · cases h
  · split at h
    · cases h
    · exact (Except.error.inj h).symm

end JavaOutline.Text
