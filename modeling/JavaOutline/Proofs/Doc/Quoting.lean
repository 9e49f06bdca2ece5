import JavaOutline.Proofs.Doc.NamedParameters

/-! # Keys in quoted sections

A value is read twice from left to right: for its words, which keep quoted sections whole, and for
its pairs, where a quote counts behind an equals sign only.  Both readings are described by what
they have passed when they get to a place (`Tag.Passes`, `Tag.Searches`).  They disagree on sections
that hold a key with an equals sign: a pair is found there unless the key is in the text of an
earlier pair, and it counts unless an earlier pair has the same key (`Tag.keys_unquoted_iff`). -/

namespace JavaOutline

open Text

namespace Tag

variable {c q : Char} {v x y w s front back text rest key : List Char}
  {p : List Char × List Char}

/-! ## Where a pair stands -/

theorem append_of_untilQuote {u : List Char × List Char} (h : untilQuote q s = some u) :
    u.1 ++ q :: u.2 = s := by
  induction s generalizing u with
  | nil => cases h
  | cons c s ih =>
    rw [untilQuote] at h
    split at h
    next hc =>
      cases h
      rw [hc]
      rfl
    next =>
      obtain ⟨u, hu, rfl⟩ := Option.map_eq_some_iff.1 h
      exact congrArg (c :: ·) (ih hu)

/-- What a value leaves is the end of what it was read from. -/
theorem isSuffix_of_valueOf? {u : List Char × List Char} (h : valueOf? s = some u) :
    u.2 <:+ s := by
  have htrim : trimStart s <:+ s := List.dropWhile_suffix _
  rw [valueOf?] at h
  split at h
  next => cases h
  next c r hcr =>
    rw [hcr] at htrim
    have hbare : (bareValue (c :: r)).2 <:+ s := (List.dropWhile_suffix _).trans htrim
    split at h
    next =>
      cases hu : untilQuote c r with
      | none =>
        rw [hu] at h
        exact Option.some.inj h ▸ hbare
      | some u' =>
        rw [hu] at h
        obtain rfl : u' = u := Option.some.inj h
        have hquoted : u'.2 <:+ c :: r :=
          ⟨c :: (u'.1 ++ [c]), by simp [← append_of_untilQuote hu]⟩
        exact hquoted.trans htrim
    next => exact Option.some.inj h ▸ hbare

/-- Anything but blanks makes a value. -/
theorem exists_valueOf? (hc : c ∈ s) (hblank : isBlank c = false) : ∃ u, valueOf? s = some u := by
  have htrim : trimStart s ≠ [] := by
    intro hnil
    rw [List.dropWhile_eq_nil_iff.1 hnil c hc] at hblank
    cases hblank
  rw [valueOf?]
  split
  next hnil => exact absurd hnil htrim
  next c r _ =>
    split
    next => cases untilQuote c r <;> exact ⟨_, rfl⟩
    next => exact ⟨_, rfl⟩

/-- Where a pair is read, its key stands in front of an equals sign. -/
theorem exists_assigns (h : pairAt? s = some (p, rest)) :
    ∃ r, Assigns p.1 r s ∧ valueOf? r = some (p.2, rest) := by
  rw [pairAt?] at h
  split at h
  next => cases h
  next hkey =>
    split at h
    next r hr =>
      obtain ⟨u, hu, hp⟩ := Option.map_eq_some_iff.1 h
      cases hp
      have hleft : (s.dropWhile isKeyChar).takeWhile isBlank ++ '=' :: r =
          s.dropWhile isKeyChar := by
        rw [← hr]
        exact List.takeWhile_append_dropWhile
      refine ⟨r, ⟨fun hnil ↦ hkey (List.isEmpty_iff.2 hnil),
        fun c hc ↦ List.mem_takeWhile_imp hc, (s.dropWhile isKeyChar).takeWhile isBlank,
        fun c hc ↦ List.mem_takeWhile_imp hc, ?_⟩, hu⟩
      rw [hleft]
      exact List.takeWhile_append_dropWhile.symm
    next => cases h

theorem exists_append_of_pairAt? (h : pairAt? s = some (p, rest)) : ∃ text, text ++ rest = s := by
  obtain ⟨r, ⟨-, -, left, -, rfl⟩, hr⟩ := exists_assigns h
  obtain ⟨u, rfl⟩ := isSuffix_of_valueOf? hr
  exact ⟨p.1 ++ (left ++ '=' :: u), by simp⟩

/-- The text of a pair is not empty. -/
theorem ne_nil_of_pairAt? (h : pairAt? (text ++ rest) = some (p, rest)) : text ≠ [] := by
  rintro rfl
  exact Nat.lt_irrefl _ (length_of_pairAt? (p := (p, rest)) h)

theorem Assigns.append {r : List Char} (h : Assigns key r s) (t : List Char) :
    Assigns key (r ++ t) (s ++ t) := by
  obtain ⟨hne, hkey, left, hleft, rfl⟩ := h
  exact ⟨hne, hkey, left, hleft, by simp⟩

theorem isKeyChar_of_isQuote (h : isQuote q = true) : isKeyChar q = false := by
  rw [isQuote, Bool.or_eq_true, beq_iff_eq, beq_iff_eq] at h
  rcases h with rfl | rfl <;> decide

/-- An assignment in front of a quote stands in front of it with its equals sign. -/
theorem Assigns.of_append_quote {d : List Char} (hq : isQuote q = true)
    (h : Assigns key rest (d ++ q :: back)) : ∃ r, Assigns key r d := by
  obtain ⟨hne, hkey, left, hleft, heq⟩ := h
  have hunquoted : q ∉ key ++ (left ++ ['=']) := by
    intro hmem
    rcases List.mem_append.1 hmem with hmem | hmem
    · have hquote := hkey q hmem
      rw [isKeyChar_of_isQuote hq] at hquote
      cases hquote
    rcases List.mem_append.1 hmem with hmem | hmem
    · rw [isQuote_of_isBlank (hleft q hmem)] at hq
      cases hq
    · rw [List.mem_singleton.1 hmem] at hq
      cases hq
  have happend : d ++ q :: back = key ++ (left ++ ['=']) ++ rest := by simp [heq]
  rcases List.append_eq_append_iff.1 happend with ⟨e, he, hrest⟩ | ⟨e, rfl, -⟩
  · cases e with
    | nil => exact ⟨[], hne, hkey, left, hleft, by simpa using he.symm⟩
    | cons q' e =>
      obtain ⟨rfl, -⟩ := List.cons.inj hrest
      exact absurd (he ▸ List.mem_append_right d List.mem_cons_self) hunquoted
  · exact ⟨e, hne, hkey, left, hleft, by simp⟩

/-! ## The search for pairs -/

/-- What the search for pairs has passed when it goes on at the rest of a value: characters at which
no pair starts, and the texts of pairs. -/
inductive Searches (rest : List Char) : List Char → Prop
  | nil : Searches rest []
  | char {c : Char} {w : List Char} :
      pairAt? (c :: (w ++ rest)) = none → Searches rest w → Searches rest (c :: w)
  | pair {p : List Char × List Char} {text w : List Char} :
      pairAt? (text ++ (w ++ rest)) = some (p, w ++ rest) → Searches rest w →
        Searches rest (text ++ w)

/-- In a value, a pair is found with its text between what stands in front of its key and what
stands behind it. -/
structure Finds (v : List Char) (p : List Char × List Char) (front text back : List Char) :
    Prop where
  append_eq : front ++ (text ++ back) = v
  searches : Searches (text ++ back) front
  pairAt?_eq : pairAt? (text ++ back) = some (p, back)

/-- The first pair that is found under a key is the one that counts. -/
structure Produces (v : List Char) (p : List Char × List Char) (front text back : List Char) : Prop
    extends Finds v p front text back where
  key_ne : ∀ p' front' text' back', Finds v p' front' text' back' →
    front'.length < front.length → p'.1 ≠ p.1

/-- To go through a value as the search does. -/
@[elab_as_elim]
theorem search_induction {P : List Char → Prop} (nil : P [])
    (char : ∀ c v, pairAt? (c :: v) = none → P v → P (c :: v))
    (pair : ∀ text rest p, pairAt? (text ++ rest) = some (p, rest) → P rest → P (text ++ rest))
    (v : List Char) : P v := by
  induction hn : v.length using Nat.strong_induction_on generalizing v with
  | _ n ih =>
    subst hn
    cases hpair : pairAt? v with
    | none =>
      cases v with
      | nil => exact nil
      | cons c v => exact char c v hpair (ih v.length (Nat.lt_succ_self _) v rfl)
    | some u =>
      obtain ⟨p, rest⟩ := u
      obtain ⟨text, rfl⟩ := exists_append_of_pairAt? hpair
      exact pair text rest p hpair (ih rest.length (length_of_pairAt? hpair) rest rfl)

theorem not_finds_nil : ¬ Finds [] p front text back := by
  rintro ⟨happend, -, hpair⟩
  rw [(List.append_eq_nil_iff.1 happend).2] at hpair
  cases hpair

theorem finds_char_iff (h : pairAt? (c :: v) = none) :
    Finds (c :: v) p front text back ↔ ∃ w, front = c :: w ∧ Finds v p w text back := by
  constructor
  · rintro ⟨happend, hsearch, hpair⟩
    cases hsearch with
    | nil =>
      rw [List.nil_append] at happend
      rw [happend, h] at hpair
      cases hpair
    | @char d w _ hw =>
      obtain ⟨rfl, htail⟩ := List.cons.inj happend
      exact ⟨w, rfl, htail, hw, hpair⟩
    | @pair p' text' w hsome _ =>
      rw [List.append_assoc] at happend
      rw [happend, h] at hsome
      cases hsome
  · rintro ⟨w, rfl, happend, hw, hpair⟩
    exact ⟨congrArg (c :: ·) happend, .char (by rw [happend, h]) hw, hpair⟩

variable {p₀ : List Char × List Char} {text₀ : List Char}

theorem finds_pair_iff (h : pairAt? (text₀ ++ rest) = some (p₀, rest)) :
    Finds (text₀ ++ rest) p front text back ↔
      (p = p₀ ∧ front = [] ∧ text = text₀ ∧ back = rest) ∨
        ∃ w, front = text₀ ++ w ∧ Finds rest p w text back := by
  constructor
  · rintro ⟨happend, hsearch, hpair⟩
    cases hsearch with
    | nil =>
      rw [List.nil_append] at happend
      rw [happend, h] at hpair
      cases hpair
      exact .inl ⟨rfl, rfl, List.append_cancel_right happend, rfl⟩
    | @char d w hnone _ =>
      rw [List.cons_append] at happend
      rw [happend, h] at hnone
      cases hnone
    | @pair p' text' w hsome hw =>
      rw [List.append_assoc] at happend
      rw [happend, h] at hsome
      obtain ⟨-, hrest⟩ := Prod.mk.inj (Option.some.inj hsome)
      rw [← hrest] at happend
      exact .inr ⟨w, by rw [List.append_cancel_right happend], hrest.symm, hw, hpair⟩
  · rintro (⟨rfl, rfl, rfl, rfl⟩ | ⟨w, rfl, happend, hw, hpair⟩)
    · exact ⟨rfl, .nil, h⟩
    · exact ⟨by rw [List.append_assoc, happend], .pair (by rw [happend, h]) hw, hpair⟩

theorem produces_char_iff (h : pairAt? (c :: v) = none) :
    Produces (c :: v) p front text back ↔ ∃ w, front = c :: w ∧ Produces v p w text back := by
  constructor
  · rintro ⟨hfinds, hne⟩
    obtain ⟨w, rfl, hw⟩ := (finds_char_iff h).1 hfinds
    refine ⟨w, rfl, hw, fun p' front' text' back' hfinds' hlt ↦ ?_⟩
    exact hne p' (c :: front') text' back' ((finds_char_iff h).2 ⟨front', rfl, hfinds'⟩)
      (Nat.succ_lt_succ hlt)
  · rintro ⟨w, rfl, hw, hne⟩
    refine ⟨(finds_char_iff h).2 ⟨w, rfl, hw⟩, fun p' front' text' back' hfinds' hlt ↦ ?_⟩
    obtain ⟨w', rfl, hw'⟩ := (finds_char_iff h).1 hfinds'
    exact hne p' w' text' back' hw' (Nat.lt_of_succ_lt_succ hlt)

theorem produces_pair_iff (h : pairAt? (text₀ ++ rest) = some (p₀, rest)) :
    Produces (text₀ ++ rest) p front text back ↔
      (p = p₀ ∧ front = [] ∧ text = text₀ ∧ back = rest) ∨
        p.1 ≠ p₀.1 ∧ ∃ w, front = text₀ ++ w ∧ Produces rest p w text back := by
  have hfirst : Finds (text₀ ++ rest) p₀ [] text₀ rest :=
    (finds_pair_iff h).2 (.inl ⟨rfl, rfl, rfl, rfl⟩)
  have hlength : 0 < text₀.length := List.length_pos_iff.2 (ne_nil_of_pairAt? h)
  constructor
  · rintro ⟨hfinds, hne⟩
    refine ((finds_pair_iff h).1 hfinds).imp_right ?_
    rintro ⟨w, rfl, hw⟩
    rw [List.length_append] at hne
    refine ⟨(hne p₀ [] text₀ rest hfirst (Nat.lt_add_right _ hlength)).symm, w, rfl, hw,
      fun p' front' text' back' hfinds' hlt ↦ ?_⟩
    refine hne p' (text₀ ++ front') text' back'
      ((finds_pair_iff h).2 (.inr ⟨front', rfl, hfinds'⟩)) ?_
    rw [List.length_append]
    exact Nat.add_lt_add_left hlt _
  · rintro (⟨rfl, rfl, rfl, rfl⟩ | ⟨hkey, w, rfl, hw, hne⟩)
    · exact ⟨hfirst, fun _ _ _ _ _ hlt ↦ absurd hlt (Nat.not_lt_zero _)⟩
    · refine ⟨(finds_pair_iff h).2 (.inr ⟨w, rfl, hw⟩),
        fun p' front' text' back' hfinds' hlt ↦ ?_⟩
      rcases (finds_pair_iff h).1 hfinds' with ⟨rfl, -⟩ | ⟨w', rfl, hw'⟩
      · exact hkey.symm
      · rw [List.length_append, List.length_append] at hlt
        exact hne p' w' text' back' hw' (Nat.lt_of_add_lt_add_left hlt)

theorem pairsOf_of_none (h : pairAt? (c :: v) = none) : pairsOf (c :: v) = pairsOf v := by
  rw [pairsOf]
  split
  next p h' =>
    rw [h] at h'
    cases h'
  next => rfl

theorem pairsOf_nil : pairsOf [] = [] := by
  rw [pairsOf]
  rfl

/-- The pairs of a value that count are the first ones found under their keys. -/
theorem mem_firstByKey_pairsOf_iff :
    p ∈ firstByKey (pairsOf v) ↔ ∃ front text back, Produces v p front text back := by
  induction v using search_induction with
  | nil =>
    rw [pairsOf_nil]
    exact ⟨nofun, fun ⟨_, _, _, h⟩ ↦ absurd h.toFinds not_finds_nil⟩
  | char c v h ih =>
    rw [pairsOf_of_none h, ih]
    constructor
    · rintro ⟨front, text, back, hp⟩
      exact ⟨c :: front, text, back, (produces_char_iff h).2 ⟨front, rfl, hp⟩⟩
    · rintro ⟨_, text, back, hp⟩
      obtain ⟨front, -, hp⟩ := (produces_char_iff h).1 hp
      exact ⟨front, text, back, hp⟩
  | pair text₀ rest p₀ h ih =>
    rw [pairsOf_of_pairAt? h, firstByKey, List.mem_cons, List.mem_filter, ih, Bool.not_eq_true',
      beq_eq_false_iff_ne]
    constructor
    · rintro (rfl | ⟨⟨front, text, back, hp⟩, hne⟩)
      · exact ⟨[], text₀, rest, (produces_pair_iff h).2 (.inl ⟨rfl, rfl, rfl, rfl⟩)⟩
      · exact ⟨text₀ ++ front, text, back,
          (produces_pair_iff h).2 (.inr ⟨hne, front, rfl, hp⟩)⟩
    · rintro ⟨_, text, back, hp⟩
      refine ((produces_pair_iff h).1 hp).imp (·.1) ?_
      rintro ⟨hne, front, -, hp⟩
      exact ⟨⟨front, text, back, hp⟩, hne⟩

/-- The search goes on at a place, unless the place is in the text of a pair. -/
theorem searches_or_finds (v : List Char) : ∀ x y, x ++ y = v → Searches y x ∨
    ∃ p front text back, Finds v p front text back ∧ front.length < x.length ∧
      x.length < (front ++ text).length := by
  induction v using search_induction with
  | nil =>
    rintro x y h
    rw [(List.append_eq_nil_iff.1 h).1]
    exact .inl .nil
  | char c v h ih =>
    rintro x y hxy
    rcases List.append_eq_cons_iff.1 hxy with ⟨rfl, -⟩ | ⟨x, rfl, rfl⟩
    · exact .inl .nil
    · refine (ih x y rfl).imp (.char h) ?_
      rintro ⟨p, front, text, back, hp, hlt, hlt'⟩
      exact ⟨p, c :: front, text, back, (finds_char_iff h).2 ⟨front, rfl, hp⟩,
        Nat.succ_lt_succ hlt, Nat.succ_lt_succ hlt'⟩
  | pair text₀ rest p₀ h ih =>
    rintro x y hxy
    rcases List.append_eq_append_iff.1 hxy with ⟨e, rfl, -⟩ | ⟨x', rfl, rfl⟩
    · -- the place is in the first pair, at its start or inside, or right behind it
      cases x with
      | nil => exact .inl .nil
      | cons c x =>
        cases e with
        | nil =>
          rw [List.append_nil] at h hxy
          obtain rfl := List.append_cancel_left hxy
          have hpassed : Searches y (c :: x ++ []) := .pair h .nil
          exact .inl (List.append_nil (c :: x) ▸ hpassed)
        | cons d e =>
          refine .inr ⟨p₀, [], _, rest, (finds_pair_iff h).2 (.inl ⟨rfl, rfl, rfl, rfl⟩),
            Nat.succ_pos _, ?_⟩
          simp
    · refine (ih x' y rfl).imp (.pair h) ?_
      rintro ⟨p, front, text, back, hp, hlt, hlt'⟩
      refine ⟨p, text₀ ++ front, text, back, (finds_pair_iff h).2 (.inr ⟨front, rfl, hp⟩), ?_, ?_⟩
      · rw [List.length_append, List.length_append]
        exact Nat.add_lt_add_left hlt _
      · rw [List.append_assoc, List.length_append, List.length_append]
        exact Nat.add_lt_add_left hlt' _

/-- A pair that is found in front of a place at which the search goes on ends there at the
latest. -/
theorem Searches.length_le (h : Searches y x) (hp : Finds (x ++ y) p front text back)
    (hlt : front.length < x.length) : (front ++ text).length ≤ x.length := by
  induction h generalizing front with
  | nil => cases hlt
  | @char c w hnone _ ih =>
    obtain ⟨front, rfl, hrest⟩ := (finds_char_iff hnone).1 hp
    exact Nat.succ_le_succ (ih hrest (Nat.lt_of_succ_lt_succ hlt))
  | @pair p₀ text₀ w hsome _ ih =>
    rw [List.append_assoc] at hp
    rcases (finds_pair_iff hsome).1 hp with ⟨-, rfl, rfl, -⟩ | ⟨front, rfl, hrest⟩
    · rw [List.nil_append, List.length_append]
      exact Nat.le_add_right _ _
    · rw [List.length_append, List.length_append] at hlt
      have hle := Nat.add_le_add_left (ih hrest (Nat.lt_of_add_lt_add_left hlt)) text₀.length
      rwa [← List.length_append, ← List.length_append, ← List.append_assoc] at hle

/-! ## Sections that are kept whole -/

/-- A quote, a text without it, and the quote again. -/
def IsSection (s : List Char) : Prop :=
  ∃ q body, isQuote q = true ∧ q ∉ body ∧ s = q :: (body ++ [q])

/-- What the words have passed when they are read up to the rest of a value and no section is open
there: characters, among them quotes that do not occur again, and sections. -/
inductive Passes (rest : List Char) : List Char → Prop
  | nil : Passes rest []
  | char {c : Char} {w : List Char} :
      (isQuote c = true → c ∉ w ++ rest) → Passes rest w → Passes rest (c :: w)
  | quoted {s w : List Char} : IsSection s → Passes rest w → Passes rest (s ++ w)

/-- In a value, a section is kept whole between what stands in front of it and what stands behind
it. -/
structure Keeps (v front s back : List Char) : Prop where
  append_eq : front ++ (s ++ back) = v
  isSection : IsSection s
  passes : Passes (s ++ back) front

/-- In a value, a place stands inside a section that is kept whole: behind the quote that opens it
and in front of the one that closes it. -/
def IsKept (v before after : List Char) : Prop :=
  ∃ front a b back, Keeps v front (a ++ b) back ∧ a ≠ [] ∧ b ≠ [] ∧
    before = front ++ a ∧ after = b ++ back

theorem IsSection.ne_nil (h : IsSection s) : s ≠ [] := by
  obtain ⟨q, body, -, -, rfl⟩ := h
  exact List.cons_ne_nil _ _

/-- The end of a section is the end of its text and the quote. -/
theorem IsSection.exists_quote {a b : List Char} (h : IsSection (a ++ b)) (ha : a ≠ [])
    (hb : b ≠ []) : ∃ q d, isQuote q = true ∧ b = d ++ [q] := by
  obtain ⟨q, body, hq, -, heq⟩ := h
  obtain ⟨c, a, rfl⟩ := List.exists_cons_of_ne_nil ha
  obtain ⟨d, e, rfl⟩ := (List.eq_nil_or_concat' b).resolve_left hb
  have happend : a ++ d ++ [e] = body ++ [q] := by
    rw [List.append_assoc]
    exact (List.cons.inj heq).2
  obtain ⟨-, hlast⟩ := List.append_inj' happend rfl
  exact ⟨q, d, hq, by rw [hlast]⟩

theorem Keeps.char (h : Keeps v front s back) (hc : isQuote c = true → c ∉ v) :
    Keeps (c :: v) (c :: front) s back := by
  obtain ⟨rfl, hs, hpasses⟩ := h
  exact ⟨rfl, hs, .char hc hpasses⟩

theorem Keeps.blank (h : Keeps v front s back) (hc : isBlank c = true) :
    Keeps (c :: v) (c :: front) s back :=
  h.char fun hquote ↦ absurd hquote (by simp [isQuote_of_isBlank hc])

theorem Keeps.quoted (h : Keeps v front s back) (hw : IsSection w) :
    Keeps (w ++ v) (w ++ front) s back := by
  obtain ⟨rfl, hs, hpasses⟩ := h
  exact ⟨List.append_assoc w front _, hs, .quoted hw hpasses⟩

theorem IsKept.blank (h : IsKept v x y) (hc : isBlank c = true) : IsKept (c :: v) (c :: x) y := by
  obtain ⟨front, a, b, back, hkeeps, ha, hb, rfl, rfl⟩ := h
  exact ⟨c :: front, a, b, back, hkeeps.blank hc, ha, hb, rfl, rfl⟩

theorem IsKept.quoted (h : IsKept v x y) (hw : IsSection w) : IsKept (w ++ v) (w ++ x) y := by
  obtain ⟨front, a, b, back, hkeeps, ha, hb, rfl, rfl⟩ := h
  exact ⟨w ++ front, a, b, back, hkeeps.quoted hw, ha, hb, (List.append_assoc w front a).symm, rfl⟩

theorem isKept_of_isSection {a b : List Char} (h : IsSection (a ++ b)) (ha : a ≠ []) (hb : b ≠ [])
    (v : List Char) : IsKept (a ++ b ++ v) a (b ++ v) :=
  ⟨[], a, b, v, ⟨rfl, h, .nil⟩, ha, hb, rfl, rfl⟩

/-! ## Sections and words -/

theorem IsSection.marks_append (h : IsSection s) (r : List Char) :
    marks none (s ++ r) = s.map (·, false) ++ marks none r := by
  obtain ⟨q, body, hq, hbody, rfl⟩ := h
  exact marks_section hq hbody r

/-- What the words have passed leaves no mark behind it. -/
theorem Passes.exists_marks (h : Passes rest w) :
    ∃ ms, ms.map Prod.fst = w ∧ marks none (w ++ rest) = ms ++ marks none rest := by
  induction h with
  | nil => exact ⟨[], rfl, rfl⟩
  | @char c w hc _ ih =>
    obtain ⟨ms, rfl, hms⟩ := ih
    rw [List.cons_append, marks]
    split
    next hquote =>
      rw [if_neg (hc hquote), hms]
      exact ⟨(c, false) :: ms, rfl, rfl⟩
    next =>
      rw [hms]
      exact ⟨(c, isBlank c) :: ms, rfl, rfl⟩
  | @quoted s w hs _ ih =>
    obtain ⟨ms, rfl, hms⟩ := ih
    rw [List.append_assoc, hs.marks_append, hms]
    exact ⟨s.map (·, false) ++ ms, by simp [Function.comp_def], (List.append_assoc _ _ _).symm⟩

/-- A word of what follows is the end of a word. -/
theorem exists_isSuffix_of_mem_chunks (m : Char × Bool) {ms : List (Char × Bool)}
    (h : w ∈ chunks ms) : ∃ w' ∈ chunks (m :: ms), w <:+ w' := by
  obtain ⟨c, b⟩ := m
  cases b with
  | true => exact ⟨w, h, List.suffix_refl w⟩
  | false =>
    match ms with
    | [] => cases h
    | (d, true) :: ms =>
      have hw : w ∈ chunks ms := h
      exact ⟨w, List.mem_cons_of_mem [c] hw, List.suffix_refl w⟩
    | (d, false) :: ms =>
      rw [chunks]
      cases hms : chunks ((d, false) :: ms) with
      | nil =>
        rw [hms] at h
        cases h
      | cons u us =>
        rw [hms] at h
        rcases List.mem_cons.1 h with rfl | h
        · exact ⟨c :: w, List.mem_cons_self, List.suffix_cons c w⟩
        · exact ⟨w, List.mem_cons_of_mem _ h, List.suffix_refl w⟩

/-- Characters that part no words start a word. -/
theorem exists_chunks_append (hs : s ≠ []) (ms : List (Char × Bool)) :
    ∃ w ws, chunks (s.map (·, false) ++ ms) = (s ++ w) :: ws := by
  induction s with
  | nil => exact absurd rfl hs
  | cons c s ih =>
    cases s with
    | nil =>
      match ms with
      | [] => exact ⟨[], [], rfl⟩
      | (d, true) :: ms => exact ⟨[], chunks ms, rfl⟩
      | (d, false) :: ms =>
        rw [List.map_singleton, List.singleton_append, chunks]
        cases chunks ((d, false) :: ms) with
        | nil => exact ⟨[], [], rfl⟩
        | cons w ws => exact ⟨w, ws, rfl⟩
    | cons d s =>
      obtain ⟨w, ws, h⟩ := ih (List.cons_ne_nil d s)
      rw [List.map_cons, List.cons_append] at h
      rw [List.map_cons, List.map_cons, List.cons_append, List.cons_append, chunks, h]
      exact ⟨w, ws, rfl⟩

theorem exists_isInfix_of_mem_chunks (hs : s ≠ []) (ms ms' : List (Char × Bool)) :
    ∃ w ∈ chunks (ms ++ (s.map (·, false) ++ ms')), s <:+: w := by
  induction ms with
  | nil =>
    obtain ⟨w, ws, h⟩ := exists_chunks_append hs ms'
    rw [List.nil_append, h]
    exact ⟨s ++ w, List.mem_cons_self, [], w, rfl⟩
  | cons m ms ih =>
    obtain ⟨w, hw, hsw⟩ := ih
    obtain ⟨w', hw', hww'⟩ := exists_isSuffix_of_mem_chunks m hw
    exact ⟨w', hw', hsw.trans hww'.isInfix⟩

/-- A section that is kept whole is part of a word. -/
theorem Keeps.exists_isInfix (h : Keeps v front s back) : ∃ w ∈ wordsOf v, s <:+: w := by
  obtain ⟨rfl, hs, hpasses⟩ := h
  obtain ⟨ms, -, hms⟩ := hpasses.exists_marks
  rw [wordsOf, hms, hs.marks_append]
  exact exists_isInfix_of_mem_chunks hs.ne_nil ms _

/-! ## Assignments in sections -/

/-- A key, blanks and an equals sign stand somewhere in the text. -/
def HoldsAssignment (s : List Char) : Prop := ∃ a u key r, a ++ u = s ∧ Assigns key r u

theorem Assigns.exists_cons (h : Assigns key rest s) :
    ∃ c r, s = c :: r ∧ isBlank c = false ∧ isQuote c = false := by
  obtain ⟨hne, hkey, left, -, rfl⟩ := h
  obtain ⟨c, key, rfl⟩ := List.exists_cons_of_ne_nil hne
  have hc := hkey c List.mem_cons_self
  refine ⟨c, key ++ (left ++ '=' :: rest), rfl, ?_, ?_⟩
  · refine eq_false_of_ne_true fun hblank ↦ ?_
    rw [isKeyChar_of_isBlank hblank] at hc
    cases hc
  · refine eq_false_of_ne_true fun hquote ↦ ?_
    rw [isKeyChar_of_isQuote hquote] at hc
    cases hc

/-- What is no quote does not start a section. -/
theorem IsSection.ne_nil_of_append_cons (h : IsSection (x ++ c :: y)) (hc : isQuote c = false) :
    x ≠ [] := by
  rintro rfl
  obtain ⟨q, body, hq, -, heq⟩ := h
  obtain ⟨rfl, -⟩ := List.cons.inj heq
  rw [hc] at hq
  cases hq

/-- An assignment in a section that is kept whole stands inside it, and a pair can be read there. -/
theorem Keeps.exists_pairAt? {a u r : List Char} (h : Keeps v front (a ++ u) back)
    (hu : Assigns key r u) : IsKept v (front ++ a) (u ++ back) ∧
      ∃ x rest, pairAt? (u ++ back) = some ((key, x), rest) := by
  obtain ⟨c, e, rfl, -, hc⟩ := hu.exists_cons
  have hne : c :: e ≠ [] := List.cons_ne_nil c e
  have ha := h.isSection.ne_nil_of_append_cons hc
  refine ⟨⟨front, a, c :: e, back, h, ha, hne, rfl, rfl⟩, ?_⟩
  obtain ⟨q, d, hq, hd⟩ := h.isSection.exists_quote ha hne
  rw [hd] at hu ⊢
  obtain ⟨r', hr'⟩ := hu.of_append_quote hq
  have hback := hr'.append (q :: back)
  obtain ⟨⟨value, rest⟩, hvalue⟩ :=
    exists_valueOf? (List.mem_append_right r' List.mem_cons_self) (isBlank_of_isQuote hq)
  rw [List.append_assoc, List.singleton_append, hback.pairAt?_eq, hvalue]
  exact ⟨value, rest, rfl⟩

/-- An assignment that starts inside a section ends there with its equals sign. -/
theorem IsKept.exists_keeps {r : List Char} (h : IsKept v x y) (hy : Assigns key r y) :
    ∃ front a u back r', Keeps v front (a ++ u) back ∧ front ++ a = x ∧ Assigns key r' u := by
  obtain ⟨front, a, u, back, hkeeps, ha, hu, rfl, rfl⟩ := h
  obtain ⟨q, d, hq, rfl⟩ := hkeeps.isSection.exists_quote ha hu
  rw [List.append_assoc] at hy
  obtain ⟨r', hr'⟩ := hy.of_append_quote hq
  exact ⟨front, a, d ++ [q], back, r' ++ [q], hkeeps, rfl, hr'.append [q]⟩

/-- No key of a pair that counts stands in a section that is kept whole if and only if every
assignment in such a section is in the text of a pair found before it or has the key of one. -/
theorem not_isKept_iff (v : List Char) :
    (∀ p front text back, Produces v p front text back → ¬ IsKept v front (text ++ back)) ↔
      ∀ front a u back key r, Keeps v front (a ++ u) back → Assigns key r u →
        ∃ p before text after, Finds v p before text after ∧
          before.length < (front ++ a).length ∧
          ((front ++ a).length < (before ++ text).length ∨ p.1 = key) := by
  constructor
  · intro h front a u back key r hkeeps hu
    obtain ⟨hkept, value, rest, hpair⟩ := hkeeps.exists_pairAt? hu
    have happend : front ++ a ++ (u ++ back) = v := by
      rw [← hkeeps.append_eq]
      simp
    rcases searches_or_finds v _ _ happend with hsearch | ⟨p, before, text, after, hp, hlt, hlt'⟩
    · obtain ⟨text, htext⟩ := exists_append_of_pairAt? hpair
      rw [← htext] at hkept hsearch happend hpair
      by_contra hnone
      refine h (key, value) (front ++ a) text rest ⟨⟨happend, hsearch, hpair⟩, ?_⟩ hkept
      intro p before text after hp hlt hkey
      exact hnone ⟨p, before, text, after, hp, hlt, .inr hkey⟩
    · exact ⟨p, before, text, after, hp, hlt, .inl hlt'⟩
  · intro h p front text back hp hkept
    obtain ⟨r, hr, -⟩ := exists_assigns hp.pairAt?_eq
    obtain ⟨front', a, u, back', r', hkeeps, rfl, hu⟩ := hkept.exists_keeps hr
    obtain ⟨p', before, text', after, hp', hlt, hlt' | hkey⟩ := h front' a u back' p.1 r' hkeeps hu
    · exact Nat.not_lt_of_le (hp.searches.length_le (hp.append_eq ▸ hp') hlt) hlt'
    · exact hp.key_ne p' before text' after hp' hlt hkey

/-! ## Values of sections -/

/-- If all words are sections, then all that is neither blank nor a quote stands inside one. -/
theorem Reads.isKept {ws : List (List Char)} (h : Reads ws v) (hws : ∀ w ∈ ws, IsSection w)
    (hxy : x ++ c :: y = v) (hblank : isBlank c = false) (hquote : isQuote c = false) :
    IsKept v x (c :: y) := by
  have hne {d : Char} (hd : isBlank d = true) : d ≠ c := by
    rintro rfl
    rw [hblank] at hd
    cases hd
  induction h generalizing x with
  | nil => exact absurd hxy (List.append_ne_nil_of_right_ne_nil x (List.cons_ne_nil c y))
  | @blank d ws v hd _ ih =>
    rcases List.append_eq_cons_iff.1 hxy with ⟨-, heq⟩ | ⟨x, rfl, rfl⟩
    · exact absurd (List.cons.inj heq).1.symm (hne hd)
    · exact (ih hws rfl).blank hd
  | @last w _ _ =>
    subst hxy
    have hs := hws _ List.mem_cons_self
    have hkept := isKept_of_isSection hs (hs.ne_nil_of_append_cons hquote) (List.cons_ne_nil c y) []
    rwa [List.append_nil, List.append_nil] at hkept
  | @cons d w ws v _ _ hd _ ih =>
    obtain ⟨hs, hws⟩ := List.forall_mem_cons.1 hws
    rcases List.append_eq_append_iff.1 hxy with ⟨b, rfl, hb⟩ | ⟨b, rfl, hb⟩
    · rcases List.cons_eq_append_iff.1 hb with ⟨-, heq⟩ | ⟨b, rfl, rfl⟩
      · exact absurd (List.cons.inj heq).1 (hne hd)
      · exact isKept_of_isSection hs (hs.ne_nil_of_append_cons hquote) (List.cons_ne_nil c b) _
    · rcases List.cons_eq_append_iff.1 hb with ⟨-, heq⟩ | ⟨b, rfl, rfl⟩
      · exact absurd (List.cons.inj heq).1.symm (hne hd)
      · exact ((ih hws rfl).blank hd).quoted hs

/-- If all words are sections, then all of them are kept whole. -/
theorem Reads.exists_keeps {ws : List (List Char)} (h : Reads ws v) (hws : ∀ w ∈ ws, IsSection w)
    (hw : w ∈ ws) : ∃ front back, Keeps v front w back := by
  induction h with
  | nil => cases hw
  | @blank d ws v hd _ ih =>
    obtain ⟨front, back, hkeeps⟩ := ih hws hw
    exact ⟨d :: front, back, hkeeps.blank hd⟩
  | last =>
    obtain rfl := List.mem_singleton.1 hw
    exact ⟨[], [], List.append_nil w, hws w hw, .nil⟩
  | @cons d u ws v _ _ hd _ ih =>
    obtain ⟨hs, hws⟩ := List.forall_mem_cons.1 hws
    rcases List.mem_cons.1 hw with rfl | hw
    · exact ⟨[], d :: v, rfl, hs, .nil⟩
    · obtain ⟨front, back, hkeeps⟩ := ih hws hw
      exact ⟨u ++ d :: front, back, (hkeeps.blank hd).quoted hs⟩

theorem mem_pairsOf_of_finds (h : Finds v p front text back) : p ∈ pairsOf v := by
  induction v using search_induction generalizing front with
  | nil => exact absurd h not_finds_nil
  | char c v hnone ih =>
    obtain ⟨w, -, hw⟩ := (finds_char_iff hnone).1 h
    exact pairsOf_of_none hnone ▸ ih hw
  | pair text₀ rest p₀ hsome ih =>
    rw [pairsOf_of_pairAt? hsome]
    rcases (finds_pair_iff hsome).1 h with ⟨rfl, -⟩ | ⟨w, -, hw⟩
    · exact List.mem_cons_self
    · exact List.mem_cons_of_mem _ (ih hw)

theorem firstByKey_eq_nil_iff {κ ν : Type} [BEq κ] {ps : List (κ × ν)} :
    firstByKey ps = [] ↔ ps = [] := by
  cases ps <;> simp [firstByKey]

/-- If all words of a value are sections, then it has no pairs if and only if no word holds an
assignment. -/
theorem Reads.pairsOf_eq_nil_iff {ws : List (List Char)} (h : Reads ws v)
    (hws : ∀ w ∈ ws, IsSection w) : pairsOf v = [] ↔ ∀ w ∈ ws, ¬ HoldsAssignment w := by
  constructor
  · rintro hnil w hw ⟨a, u, key, r, rfl, hu⟩
    obtain ⟨front, back, hkeeps⟩ := h.exists_keeps hws hw
    obtain ⟨-, value, rest, hpair⟩ := hkeeps.exists_pairAt? hu
    have happend : front ++ a ++ (u ++ back) = v := by
      rw [← hkeeps.append_eq]
      simp
    have hfinds : ∃ p front text back, Finds v p front text back := by
      rcases searches_or_finds v _ _ happend with hsearch | ⟨p, before, text, after, hp, -⟩
      · obtain ⟨text, htext⟩ := exists_append_of_pairAt? hpair
        rw [← htext] at hsearch happend hpair
        exact ⟨_, _, text, rest, happend, hsearch, hpair⟩
      · exact ⟨p, before, text, after, hp⟩
    obtain ⟨p, _, _, _, hp⟩ := hfinds
    have hmem := mem_pairsOf_of_finds hp
    rw [hnil] at hmem
    cases hmem
  · intro hnone
    rw [← firstByKey_eq_nil_iff, List.eq_nil_iff_forall_not_mem]
    intro p hp
    obtain ⟨front, text, back, hfinds⟩ := mem_firstByKey_pairsOf_iff.1 hp
    obtain ⟨r, hr, -⟩ := exists_assigns hfinds.pairAt?_eq
    obtain ⟨c, y, hy, hblank, hquote⟩ := hr.exists_cons
    have hkept : IsKept v front (text ++ back) := by
      have happend := hfinds.append_eq
      rw [hy] at happend ⊢
      exact h.isKept hws happend hblank hquote
    obtain ⟨front', a, u, back', r', hkeeps, -, hu⟩ := hkept.exists_keeps hr
    obtain ⟨w, hw, b, e, hbe⟩ := hkeeps.exists_isInfix
    rw [h.wordsOf_eq] at hw
    exact hnone w hw ⟨b ++ a, u ++ e, p.1, r' ++ e, by simp [← hbe], hu.append e⟩

/-! ## Tags -/

theorem firstByKey_map {κ κ' ν ν' : Type} [BEq κ] [LawfulBEq κ] [BEq κ'] [LawfulBEq κ']
    {f : κ → κ'} (hf : f.Injective) (g : ν → ν') (ps : List (κ × ν)) :
    firstByKey (ps.map (Prod.map f g)) = (firstByKey ps).map (Prod.map f g) := by
  induction ps with
  | nil => rfl
  | cons p ps ih =>
    have hkeys : (fun q ↦ !(q.1 == f p.1)) ∘ Prod.map f g = fun q ↦ !(q.1 == p.1) :=
      funext fun q ↦ congrArg (!·) hf.beq_eq
    rw [List.map_cons, firstByKey, firstByKey, List.map_cons, ih, List.filter_map, Prod.map_fst,
      hkeys]

theorem namedParameters_eq (t : Tag) : t.namedParameters =
    (firstByKey (pairsOf t.value.toList)).map (Prod.map String.ofList String.ofList) :=
  firstByKey_map (fun _ _ ↦ String.ofList_injective) _ _

theorem mem_namedParameters_iff {t : Tag} {e : String × String} :
    e ∈ t.namedParameters ↔
      ∃ front text back, Produces t.value.toList (e.1.toList, e.2.toList) front text back := by
  rw [namedParameters_eq, ← mem_firstByKey_pairsOf_iff, List.mem_map]
  constructor
  · rintro ⟨p, hp, rfl⟩
    simpa using hp
  · intro hp
    exact ⟨_, hp, by simp⟩

/-- A key with a value is a named parameter exactly if a pair of them is the first one found under
the key.  The sections that are kept whole are parts of words.  No key of a named parameter stands
in one if and only if every key with an equals sign that does is in the text of a pair found before
it or is the key of one; and a value whose words are sections has no named parameters if and only if
no word holds a key with an equals sign. -/
theorem keys_unquoted_iff (t : Tag) :
    (∀ e, e ∈ t.namedParameters ↔
      ∃ front text back, Produces t.value.toList (e.1.toList, e.2.toList) front text back) ∧
    (∀ front s back, Keeps t.value.toList front s back → ∃ w ∈ t.words, s <:+: w.toList) ∧
    ((∀ e ∈ t.namedParameters, ∀ front text back,
        Produces t.value.toList (e.1.toList, e.2.toList) front text back →
          ¬ IsKept t.value.toList front (text ++ back)) ↔
      ∀ front a u back key r, Keeps t.value.toList front (a ++ u) back → Assigns key r u →
        ∃ p before text after, Finds t.value.toList p before text after ∧
          before.length < (front ++ a).length ∧
          ((front ++ a).length < (before ++ text).length ∨ p.1 = key)) ∧
    ((∀ w ∈ t.words, IsSection w.toList) →
      (t.namedParameters = [] ↔ ∀ w ∈ t.words, ¬ HoldsAssignment w.toList)) := by
  refine ⟨fun e ↦ mem_namedParameters_iff, fun front s back h ↦ ?_, ?_, fun hws ↦ ?_⟩
  · obtain ⟨w, hw, hsw⟩ := h.exists_isInfix
    rw [← t.map_toList_words] at hw
    obtain ⟨u, hu, rfl⟩ := List.mem_map.1 hw
    exact ⟨u, hu, hsw⟩
  · rw [← not_isKept_iff]
    constructor
    · intro h p front text back hp
      have hp' : Produces t.value.toList
          ((String.ofList p.1).toList, (String.ofList p.2).toList) front text back := by
        simpa using hp
      exact h (String.ofList p.1, String.ofList p.2)
        (mem_namedParameters_iff.2 ⟨front, text, back, hp'⟩) front text back hp'
    · exact fun h e _ ↦ h _
  · rw [namedParameters_eq, List.map_eq_nil_iff, firstByKey_eq_nil_iff,
      t.reads_words.pairsOf_eq_nil_iff (List.forall_mem_map.2 hws), List.forall_mem_map]

/-- Two values of sections, of which the second holds a key with an equals sign. -/
theorem keys_unquoted_iff_sections : ∃ t u : Tag,
    t.value = "'one two'  \"three\"" ∧ (∀ w ∈ t.words, IsSection w.toList) ∧
      (∀ w ∈ t.words, ¬ HoldsAssignment w.toList) ∧ t.namedParameters = [] ∧
    u.value = "'one two'  \"see n = 3\"" ∧ (∀ w ∈ u.words, IsSection w.toList) ∧
      "\"see n = 3\"" ∈ u.words ∧ HoldsAssignment "\"see n = 3\"".toList ∧
      u.namedParameters ≠ [] := by
  refine ⟨{ name := "see", value := "'one two'  \"three\"", line := 1 },
    { name := "see", value := "'one two'  \"see n = 3\"", line := 2 }, rfl, ?_⟩
  generalize ht : Tag.mk "see" "'one two'  \"three\"" 1 = t
  generalize hu : Tag.mk "see" "'one two'  \"see n = 3\"" 2 = u
  have htwords : t.words = ["'one two'", "\"three\""] := by rw [← ht]; decide
  have huwords : u.words = ["'one two'", "\"see n = 3\""] := by rw [← hu]; decide
  have hsection : IsSection "'one two'".toList := ⟨'\'', "one two".toList, rfl, by decide, rfl⟩
  have hthree : IsSection "\"three\"".toList := ⟨'"', "three".toList, rfl, by decide, rfl⟩
  have hsee : IsSection "\"see n = 3\"".toList := ⟨'"', "see n = 3".toList, rfl, by decide, rfl⟩
  have htsections : ∀ w ∈ t.words, IsSection w.toList := by
    rw [htwords]
    exact List.forall_mem_cons.2 ⟨hsection, List.forall_mem_singleton.2 hthree⟩
  have husections : ∀ w ∈ u.words, IsSection w.toList := by
    rw [huwords]
    exact List.forall_mem_cons.2 ⟨hsection, List.forall_mem_singleton.2 hsee⟩
  have hnone : ∀ w ∈ t.words, ¬ HoldsAssignment w.toList := by
    have hequals : ∀ w ∈ t.words, '=' ∉ w.toList := by rw [htwords]; decide
    rintro w hw ⟨a, u, key, r, hau, -, -, left, -, rfl⟩
    refine hequals w hw ?_
    rw [← hau]
    simp
  have hmem : "\"see n = 3\"" ∈ u.words := by rw [huwords]; decide
  have hholds : HoldsAssignment "\"see n = 3\"".toList :=
    ⟨"\"see ".toList, "n = 3\"".toList, ['n'], " 3\"".toList, rfl, by decide,
      forall_mem_of_all (by decide), [' '], forall_mem_of_all (by decide), rfl⟩
  obtain ⟨-, -, -, htnone⟩ := keys_unquoted_iff t
  obtain ⟨-, -, -, hunone⟩ := keys_unquoted_iff u
  exact ⟨htsections, hnone, (htnone htsections).2 hnone, hu ▸ rfl, husections, hmem, hholds,
    fun hnil ↦ (hunone husections).1 hnil _ hmem hholds⟩

/-- A value that is a single section has a named parameter, whose key stands in that section and
whose value has the closing quote. -/
theorem keys_unquoted_ne : ∃ t : Tag, t.value = "\"a=b\"" ∧ t.words = ["\"a=b\""] ∧
    (∀ w ∈ t.words, IsSection w.toList) ∧ t.namedParameters = [("a", "b\"")] ∧
    ∃ front text back,
      Produces t.value.toList ("a".toList, "b\"".toList) front text back ∧
      IsKept t.value.toList front (text ++ back) := by
  have hquote : pairAt? "\"a=b\"".toList = none := by decide
  have hpair : pairAt? ("a=b\"".toList ++ []) = some (("a".toList, "b\"".toList), []) := by decide
  have hsection : IsSection (['"'] ++ "a=b\"".toList) := ⟨'"', "a=b".toList, rfl, by decide, rfl⟩
  have hproduces : Produces "\"a=b\"".toList ("a".toList, "b\"".toList) ['"'] "a=b\"".toList [] :=
    (produces_char_iff hquote).2 ⟨[], rfl, (produces_pair_iff hpair).2 (.inl ⟨rfl, rfl, rfl, rfl⟩)⟩
  have hpairs : pairsOf "\"a=b\"".toList = [("a".toList, "b\"".toList)] := by
    have hrest := pairsOf_of_pairAt? hpair
    rw [pairsOf_nil] at hrest
    exact (pairsOf_of_none hquote).trans hrest
  refine ⟨{ name := "see", value := "\"a=b\"", line := 1 }, rfl, by decide, ?_, ?_,
    ['"'], "a=b\"".toList, [], hproduces, isKept_of_isSection hsection (by decide) (by decide) []⟩
  · have hwords : Tag.words { name := "see", value := "\"a=b\"", line := 1 } = ["\"a=b\""] := by
      decide
    rw [hwords]
    exact List.forall_mem_singleton.2 hsection
  · rw [namedParameters_eq, hpairs]
    rfl

end Tag

end JavaOutline
