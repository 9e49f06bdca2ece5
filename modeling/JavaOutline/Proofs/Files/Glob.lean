import JavaOutline.Files.Glob
import JavaOutline.Proofs.Text.Lines
import Mathlib.Data.List.Forall2
import Mathlib.Data.List.Infix

/-! # Globs, segment by segment

A text for which a glob stands falls into parts for which the parts of the glob stand
(`Glob.accepts_append_iff`).  Cut at its slashes, a glob without brackets stands for the texts that
are joined by slashes from texts for which its segments stand (`Glob.matches_iff`).  These may hold
slashes themselves, but only if the segment has a wildcard (`Glob.matches_iff_eq`). -/

namespace JavaOutline.Glob

open Text

/-! ## Parts of a glob -/

theorem tails_eq (s : List α) : tails s = s.tails := by
  induction s with
  | nil => rfl
  | cons a s ih => rw [tails, ih, List.tails]

theorem accepts_star (ps : List Item) (s : List Char) :
    accepts (.star :: ps) s = true ↔ ∃ a b, a ++ b = s ∧ accepts ps b = true := by
  rw [accepts, tails_eq, List.any_eq_true]
  constructor
  · rintro ⟨b, hb, h⟩
    obtain ⟨a, ha⟩ := (List.mem_tails b s).1 hb
    exact ⟨a, b, ha, h⟩
  · rintro ⟨a, b, rfl, h⟩
    exact ⟨b, (List.mem_tails b _).2 (List.suffix_append a b), h⟩

theorem accepts_cons {p : Item} (hp : p ≠ .star) (ps : List Item) (s : List Char) :
    accepts (p :: ps) s = true ↔ ∃ c b, c :: b = s ∧ p.admits c = true ∧ accepts ps b = true := by
  cases s with
  | nil =>
    have hnil : accepts (p :: ps) [] = false := by
      cases p with
      | star => exact absurd rfl hp
      | any => rfl
      | char d => rfl
      | set negated ranges => rfl
    rw [hnil]
    exact iff_of_false Bool.false_ne_true fun ⟨c, b, h, _⟩ ↦ absurd h (List.cons_ne_nil c b)
  | cons c r =>
    have haccepts : accepts (p :: ps) (c :: r) = (p.admits c && accepts ps r) := by
      cases p with
      | star => exact absurd rfl hp
      | any => rfl
      | char d => rfl
      | set negated ranges => rfl
    rw [haccepts, Bool.and_eq_true]
    constructor
    · intro h
      exact ⟨c, r, rfl, h⟩
    · rintro ⟨d, b, heq, h⟩
      obtain ⟨rfl, rfl⟩ := List.cons.inj heq
      exact h

/-- Two globs in a row stand for what the first stands for followed by what the second stands
for. -/
theorem accepts_append_iff (ps qs : List Item) (s : List Char) :
    accepts (ps ++ qs) s = true ↔
      ∃ a b, a ++ b = s ∧ accepts ps a = true ∧ accepts qs b = true := by
  induction ps generalizing s with
  | nil =>
    constructor
    · intro h
      exact ⟨[], s, rfl, rfl, h⟩
    · rintro ⟨a, b, rfl, ha, hb⟩
      rw [accepts, List.isEmpty_iff] at ha
      rwa [ha]
  | cons p ps ih =>
    rw [List.cons_append]
    by_cases hp : p = .star
    · subst hp
      simp only [accepts_star, ih]
      constructor
      · rintro ⟨a, _, rfl, b, c, rfl, hb, hc⟩
        exact ⟨a ++ b, c, List.append_assoc a b c, ⟨a, b, rfl, hb⟩, hc⟩
      · rintro ⟨_, c, rfl, ⟨a, b, rfl, hb⟩, hc⟩
        exact ⟨a, b ++ c, (List.append_assoc a b c).symm, b, c, rfl, hb, hc⟩
    · simp only [accepts_cons hp, ih]
      constructor
      · rintro ⟨d, _, rfl, hd, b, c, rfl, hb, hc⟩
        exact ⟨d :: b, c, rfl, ⟨d, b, rfl, hd, hb⟩, hc⟩
      · rintro ⟨_, c, rfl, ⟨d, b, rfl, hd, hb⟩, hc⟩
        exact ⟨d, b ++ c, rfl, hd, b, c, rfl, hb, hc⟩

/-! ## Globs without brackets -/

/-- The item of a character outside brackets. -/
def itemOf : Char → Item
  | '*' => .star
  | '?' => .any
  | c => .char c

theorem itemOf_of_ne {c : Char} (hs : c ≠ '*') (ha : c ≠ '?') : itemOf c = .char c := by
  rw [itemOf]
  · exact hs
  · exact ha

theorem items_eq_map {s : List Char} (h : '[' ∉ s) : items s = s.map itemOf := by
  have hwithin (n : Nat) (hn : s.length ≤ n) : itemsWithin n s = s.map itemOf := by
    induction s generalizing n with
    | nil => cases n <;> rfl
    | cons c s ih =>
      obtain ⟨hc, hs⟩ := not_or.1 (List.mem_cons.not.1 h)
      cases n with
      | zero => exact absurd hn (Nat.not_succ_le_zero _)
      | succ n =>
        have ih := ih hs n (Nat.le_of_succ_le_succ hn)
        rw [List.map_cons, ← ih]
        by_cases hstar : c = '*'
        · rw [hstar]
          rfl
        · by_cases hany : c = '?'
          · rw [hany]
            rfl
          · rw [itemOf_of_ne hstar hany, itemsWithin]
            · exact hstar
            · exact hany
            · exact Ne.symm hc
  exact hwithin s.length le_rfl

theorem accepts_literal_iff {g : List Char} (hstar : '*' ∉ g) (hany : '?' ∉ g) (s : List Char) :
    accepts (g.map itemOf) s = true ↔ s = g := by
  induction g generalizing s with
  | nil => exact List.isEmpty_iff
  | cons c g ih =>
    obtain ⟨hc, hstar⟩ := not_or.1 (List.mem_cons.not.1 hstar)
    obtain ⟨hc', hany⟩ := not_or.1 (List.mem_cons.not.1 hany)
    have hchar : Item.char c ≠ .star := nofun
    rw [List.map_cons, itemOf_of_ne (Ne.symm hc) (Ne.symm hc'), accepts_cons hchar]
    constructor
    · rintro ⟨d, b, rfl, hd, hb⟩
      have hd : d = c := by simpa [Item.admits] using hd
      rw [hd, (ih hstar hany b).1 hb]
    · rintro rfl
      exact ⟨c, g, rfl, by simp [Item.admits], (ih hstar hany g).2 rfl⟩

/-- Without brackets and wildcards a glob stands for itself alone. -/
theorem matches_iff_eq {g : List Char} (hset : '[' ∉ g) (hstar : '*' ∉ g) (hany : '?' ∉ g)
    (s : List Char) : Glob.matches g s = true ↔ s = g := by
  rw [Glob.matches, items_eq_map hset]
  exact accepts_literal_iff hstar hany s

/-! ## Segments -/

theorem accepts_joinWith_iff {gs : List (List Char)} (hne : gs ≠ []) (s : List Char) :
    accepts ((joinWith ['/'] gs).map itemOf) s = true ↔
      ∃ ts, List.Forall₂ (fun g t ↦ accepts (g.map itemOf) t = true) gs ts ∧
        joinWith ['/'] ts = s := by
  induction gs generalizing s with
  | nil => exact absurd rfl hne
  | cons g gs ih =>
    cases gs with
    | nil =>
      rw [joinWith]
      constructor
      · intro h
        exact ⟨[s], .cons h .nil, rfl⟩
      · rintro ⟨ts, h, rfl⟩
        obtain ⟨t, _, ht, hnil, rfl⟩ := List.forall₂_cons_left_iff.1 h
        rw [List.forall₂_nil_left_iff.1 hnil]
        exact ht
    | cons k gs =>
      have ih := ih (List.cons_ne_nil k gs)
      have hslash (b : List Char) : accepts (['/'].map itemOf) b = true ↔ b = ['/'] :=
        accepts_literal_iff (by decide) (by decide) b
      rw [joinWith, List.map_append, List.map_append, List.append_assoc, accepts_append_iff]
      simp only [accepts_append_iff, hslash, ih]
      constructor
      · rintro ⟨t, _, rfl, ht, _, _, rfl, rfl, ts, hts, rfl⟩
        obtain ⟨u, us, -, -, rfl⟩ := List.forall₂_cons_left_iff.1 hts
        exact ⟨t :: u :: us, .cons ht hts, by rw [joinWith, List.append_assoc]⟩
      · rintro ⟨ts, h, rfl⟩
        obtain ⟨t, ts, ht, hts, rfl⟩ := List.forall₂_cons_left_iff.1 h
        obtain ⟨u, us, -, -, rfl⟩ := List.forall₂_cons_left_iff.1 hts
        exact ⟨t, _, by rw [joinWith, List.append_assoc], ht, _, _, rfl, rfl, _, hts, rfl⟩

/-- A glob stands for the texts that are joined from what its segments stand for. -/
theorem matches_iff {g : List Char} (hset : '[' ∉ g) (s : List Char) :
    Glob.matches g s = true ↔
      ∃ ts, List.Forall₂ (fun p t ↦ Glob.matches p t = true) (splitAt '/' g) ts ∧
        joinWith ['/'] ts = s := by
  have hsegment : ∀ p ∈ splitAt '/' g, items p = p.map itemOf :=
    fun p hp ↦ items_eq_map fun h ↦ hset (mem_of_mem_splitAt hp h)
  have hsegments (ts : List (List Char)) :
      List.Forall₂ (fun p t ↦ accepts (p.map itemOf) t = true) (splitAt '/' g) ts ↔
        List.Forall₂ (fun p t ↦ Glob.matches p t = true) (splitAt '/' g) ts := by
    constructor
    · intro h
      refine ((List.forall₂_and_left _ _).2 ⟨hsegment, h⟩).imp ?_
      rintro p t ⟨hp, h⟩
      rwa [Glob.matches, hp]
    · intro h
      refine ((List.forall₂_and_left _ _).2 ⟨hsegment, h⟩).imp ?_
      rintro p t ⟨hp, h⟩
      rwa [Glob.matches, hp] at h
  rw [Glob.matches, items_eq_map hset]
  conv_lhs => rw [← joinWith_splitAt '/' g]
  rw [accepts_joinWith_iff (splitAt_ne_nil '/' g)]
  simp only [hsegments]

end JavaOutline.Glob
