import JavaOutline.Proofs.Doc.Words
import JavaOutline.Proofs.Outcome
import Mathlib.Data.List.Forall2

/-! # Named parameters that were written

A pair can be written with its value in either kind of quotes or bare, and with blanks around the
equals sign (`Tag.Writes`).  In front of the end or of a blank, what is written reads as the pair
and leaves exactly what stands behind it (`Tag.Writes.pairAt?_append`), so a value that is tiled
with written pairs reads as these pairs, whatever their quoted texts look like, and the first under
each key counts (`Tag.namedParameters_of_written`). -/

namespace JavaOutline

open Text

/-! ## The first under each key -/

section Keys

variable {κ ν : Type} [BEq κ] [LawfulBEq κ]

theorem eraseDups_filter (f : κ → Bool) (ks : List κ) :
    ks.eraseDups.filter f = (ks.filter f).eraseDups := by
  induction hn : ks.length using Nat.strong_induction_on generalizing ks with
  | _ n ih =>
    subst hn
    cases ks with
    | nil => rfl
    | cons k ks =>
      have hlength : (ks.filter (!· == k)).length < (k :: ks).length :=
        Nat.lt_succ_of_le (List.length_filter_le _ _)
      have hrest := ih _ hlength _ rfl
      rw [List.filter_filter] at hrest
      rw [List.eraseDups_cons]
      by_cases hk : f k = true
      · rw [List.filter_cons_of_pos hk, List.filter_cons_of_pos hk, List.eraseDups_cons, hrest,
          List.filter_filter]
        simp only [Bool.and_comm]
      · rw [List.filter_cons_of_neg hk, List.filter_cons_of_neg hk, hrest]
        refine congrArg List.eraseDups (List.filter_congr fun x _ ↦ ?_)
        by_cases hx : x = k
        · simp [hx, hk]
        · simp [hx]

/-- The keys stand in the order in which they first occur. -/
theorem Tag.keys_firstByKey (ps : List (κ × ν)) :
    (firstByKey ps).map Prod.fst = (ps.map Prod.fst).eraseDups := by
  induction ps with
  | nil => rfl
  | cons p ps ih =>
    rw [firstByKey, List.map_cons, List.map_cons, List.eraseDups_cons, ← eraseDups_filter, ← ih,
      List.filter_map]
    rfl

/-- Under each key stands what came first. -/
theorem Tag.lookup_firstByKey (ps : List (κ × ν)) (k : κ) :
    (firstByKey ps).lookup k = ps.lookup k := by
  induction ps with
  | nil => rfl
  | cons p ps ih =>
    obtain ⟨a, x⟩ := p
    rw [firstByKey, List.lookup_cons, List.lookup_cons]
    by_cases ha : k = a
    · rw [ha, beq_self_eq_true]
    · rw [beq_eq_false_iff_ne.2 ha, lookup_filter (by simp [ha]), ih]

end Keys

namespace Tag

variable {c : Char} {rest : List Char}

/-! ## Written pairs -/

/-- How a value can be written: in quotes that do not occur in it, or bare, if it has no blank and
does not start with a quote. -/
inductive WritesValue : List Char → List Char → Prop
  | quoted {q : Char} {x : List Char} :
      isQuote q = true → q ∉ x → WritesValue x (q :: (x ++ [q]))
  | bare {c : Char} {x : List Char} :
      isQuote c = false → (∀ d ∈ c :: x, isBlank d = false) → WritesValue (c :: x) (c :: x)

/-- How a pair can be written: its key, an equals sign with any blanks around it, its value. -/
inductive Writes : List Char × List Char → List Char → Prop
  | pair {key x left right text : List Char} :
      key ≠ [] → (∀ c ∈ key, isKeyChar c = true) → (∀ c ∈ left, isBlank c = true) →
        (∀ c ∈ right, isBlank c = true) → WritesValue x text →
        Writes (key, x) (key ++ (left ++ '=' :: (right ++ text)))

/-- No blank is part of a key. -/
theorem isKeyChar_of_isBlank (h : isBlank c = true) : isKeyChar c = false := by
  have hblank : c.toNat ∈ List.range' 9 5 ++ List.range' 28 5 ++ List.range' 8192 11 ++
      [133, 160, 5760, 8232, 8233, 8239, 8287, 12288] := by
    simp only [isBlank, Bool.or_eq_true, Bool.and_eq_true, decide_eq_true_eq, beq_iff_eq] at h
    simp only [List.mem_append, List.mem_range'_1, List.mem_cons, List.not_mem_nil]
    omega
  have hkey : ∀ n ∈ List.range' 9 5 ++ List.range' 28 5 ++ List.range' 8192 11 ++
      [133, 160, 5760, 8232, 8233, 8239, 8287, 12288], isKeyChar (Char.ofNat n) = false := by
    decide +kernel
  exact Char.ofNat_toNat c ▸ hkey _ hblank

theorem takeWhile_append_of_stop {p : Char → Bool} {s t : List Char} (hs : ∀ c ∈ s, p c = true)
    (ht : t.head?.any p = false) :
    (s ++ t).takeWhile p = s ∧ (s ++ t).dropWhile p = t := by
  rw [List.takeWhile_append_of_pos hs, List.dropWhile_append_of_pos hs]
  cases t with
  | nil => exact ⟨List.append_nil s, rfl⟩
  | cons c t =>
    have hc : ¬ p c = true := by simpa using ht
    rw [List.takeWhile_cons_of_neg hc, List.dropWhile_cons_of_neg hc]
    exact ⟨List.append_nil s, rfl⟩

theorem untilQuote_append {q : Char} {x : List Char} (hx : q ∉ x) (rest : List Char) :
    untilQuote q (x ++ q :: rest) = some (x, rest) := by
  induction x with
  | nil => exact if_pos rfl
  | cons c x ih =>
    obtain ⟨hc, hx⟩ := not_or.1 (List.mem_cons.not.1 hx)
    rw [List.cons_append, untilQuote, if_neg (Ne.symm hc), ih hx]
    rfl

theorem Ends.head?_any (h : Ends rest) : rest.head?.any (!isBlank ·) = false := by
  rcases h with rfl | h
  · rfl
  · cases rest with
    | nil => rfl
    | cons d rest => simpa using h

theorem valueOf?_append_cons {right r : List Char} (hright : ∀ d ∈ right, isBlank d = true)
    (hc : isBlank c = false) :
    valueOf? (right ++ c :: r) = if isQuote c then (untilQuote c r).or (some (bareValue (c :: r)))
      else some (bareValue (c :: r)) := by
  have htrim : trimStart (right ++ c :: r) = c :: r :=
    (trimStart_append_of_blank _ hright).trans (trimStart_eq_self hc)
  rw [valueOf?, htrim]

/-- A written value reads as that value, and leaves what stands behind it. -/
theorem WritesValue.valueOf?_append {x text right : List Char} (h : WritesValue x text)
    (hright : ∀ c ∈ right, isBlank c = true) (hrest : Ends rest) :
    valueOf? (right ++ text ++ rest) = some (x, rest) := by
  rw [List.append_assoc]
  cases h with
  | @quoted q _ hq hx =>
    have htext : q :: (x ++ [q]) ++ rest = q :: (x ++ q :: rest) := by simp
    rw [htext, valueOf?_append_cons hright (isBlank_of_isQuote hq), if_pos hq,
      untilQuote_append hx]
    rfl
  | @bare c x hc hx =>
    have hblank : ∀ d ∈ c :: x, (!isBlank d) = true := fun d hd ↦ by rw [hx d hd]; rfl
    obtain ⟨htake, hdrop⟩ := takeWhile_append_of_stop hblank hrest.head?_any
    rw [List.cons_append, valueOf?_append_cons hright (hx c List.mem_cons_self),
      if_neg (by simp [hc])]
    exact congrArg some (Prod.ext htake hdrop)

/-- The text starts with a key, blanks and an equals sign, and goes on with the rest. -/
def Assigns (key rest s : List Char) : Prop :=
  key ≠ [] ∧ (∀ c ∈ key, isKeyChar c = true) ∧
    ∃ left, (∀ c ∈ left, isBlank c = true) ∧ s = key ++ (left ++ '=' :: rest)

/-- Behind a key and an equals sign it only takes a value to make a pair. -/
theorem Assigns.pairAt?_eq {key s : List Char} (h : Assigns key rest s) :
    pairAt? s = (valueOf? rest).map fun p ↦ ((key, p.1), p.2) := by
  obtain ⟨hne, hkey, left, hleft, rfl⟩ := h
  have hstop : (left ++ '=' :: rest).head?.any isKeyChar = false := by
    cases left with
    | nil => exact (by decide : isKeyChar '=' = false)
    | cons c left => exact isKeyChar_of_isBlank (hleft c List.mem_cons_self)
  obtain ⟨htake, hdrop⟩ := takeWhile_append_of_stop hkey hstop
  have hequals : trimStart (left ++ '=' :: rest) = '=' :: rest := by
    rw [trimStart_append_of_blank _ hleft]
    exact trimStart_eq_self (by decide : isBlank '=' = false)
  rw [pairAt?, htake, hdrop, hequals, List.isEmpty_eq_false_iff.2 hne]
  rfl

/-- A written pair reads as that pair, and leaves what stands behind it. -/
theorem Writes.pairAt?_append {p : List Char × List Char} {text : List Char} (h : Writes p text)
    (hrest : Ends rest) : pairAt? (text ++ rest) = some (p, rest) := by
  cases h with
  | @pair key x left right text hne hkey hleft hright hvalue =>
    have htext : key ++ (left ++ '=' :: (right ++ text)) ++ rest =
        key ++ (left ++ '=' :: (right ++ text ++ rest)) := by simp
    have hassigns : Assigns key (right ++ text ++ rest)
        (key ++ (left ++ '=' :: (right ++ text)) ++ rest) := ⟨hne, hkey, left, hleft, htext⟩
    rw [hassigns.pairAt?_eq, hvalue.valueOf?_append hright hrest]
    rfl

/-! ## Going through a value -/

theorem pairsOf_of_pairAt? {v : List Char} {p : (List Char × List Char) × List Char}
    (h : pairAt? v = some p) : pairsOf v = p.1 :: pairsOf p.2 := by
  rw [pairsOf]
  split
  next p' h' => rw [Option.some.inj (h.symm.trans h')]
  next h' => rw [h] at h'; cases h'

/-- Nothing starts at a blank. -/
theorem pairsOf_blank (hc : isBlank c = true) (v : List Char) : pairsOf (c :: v) = pairsOf v := by
  have hkey : ¬ isKeyChar c = true := by simp [isKeyChar_of_isBlank hc]
  have hnone : pairAt? (c :: v) = none := by
    rw [pairAt?, List.takeWhile_cons_of_neg hkey]
    rfl
  rw [pairsOf]
  split
  next p h => rw [hnone] at h; cases h
  next => rfl

/-- A value that is tiled with written pairs reads as these pairs. -/
theorem pairsOf_of_tiles {ps : List (List Char × List Char)} {texts : List (List Char)}
    {v : List Char} (hw : List.Forall₂ Writes ps texts) (hv : Tiles texts v) : pairsOf v = ps := by
  induction hv generalizing ps with
  | nil =>
    rw [List.forall₂_nil_right_iff.1 hw, pairsOf]
    rfl
  | blank hc _ ih => rw [pairsOf_blank hc, ih hw]
  | last text =>
    obtain ⟨p, ps, hp, hnil, rfl⟩ := List.forall₂_cons_right_iff.1 hw
    have hpair := hp.pairAt?_append (.inl rfl)
    rw [List.append_nil] at hpair
    rw [pairsOf_of_pairAt? hpair, List.forall₂_nil_right_iff.1 hnil, pairsOf]
    rfl
  | @cons text c texts v hc _ ih =>
    obtain ⟨p, ps, hp, hps, rfl⟩ := List.forall₂_cons_right_iff.1 hw
    have hends : Ends (c :: v) := .inr hc
    rw [pairsOf_of_pairAt? (hp.pairAt?_append hends), pairsOf_blank hc, ih hps]

/-- From a value that was written pair by pair, each key is read once, in the order in which the
keys first occur, with the value that was written first under it; and a look-up finds that value. -/
theorem namedParameters_of_written (t : Tag) {ps : List (String × String)}
    {texts : List (List Char)}
    (hw : List.Forall₂ (fun p text ↦ Writes (p.1.toList, p.2.toList) text) ps texts)
    (hv : Tiles texts t.value.toList) :
    t.namedParameters.map Prod.fst = (ps.map Prod.fst).eraseDups ∧
      (∀ key, t.namedParameters.lookup key = ps.lookup key) ∧
      ∀ key, t.namedParameter? key = t.namedParameters.lookup key := by
  have hread : pairsOf t.value.toList = ps.map fun p ↦ (p.1.toList, p.2.toList) :=
    pairsOf_of_tiles (List.forall₂_map_left_iff.2 hw) hv
  have hpairs : t.namedParameters = firstByKey ps := by
    rw [namedParameters, hread, List.map_map]
    simp [Function.comp_def]
  rw [hpairs]
  refine ⟨keys_firstByKey ps, lookup_firstByKey ps, fun key ↦ ?_⟩
  rw [namedParameter?, hpairs]

/-- A quoted value that looks like a pair, a key that is written again, and a bare value with an
equals sign and a quote. -/
theorem namedParameters_of_written_repeated : ∃ (t : Tag) (ps : List (String × String))
    (texts : List (List Char)), t.value = "a = \"x b=2\"  b='1' a=c d.e =g='h" ∧
      List.Forall₂ (fun p text ↦ Writes (p.1.toList, p.2.toList) text) ps texts ∧
      Tiles texts t.value.toList ∧
      t.namedParameters.map Prod.fst = ["a", "b", "d.e"] ∧
      t.namedParameters.lookup "a" = some "x b=2" ∧
      t.namedParameter? "d.e" = t.namedParameters.lookup "d.e" := by
  have hquoted : Writes ("a".toList, "x b=2".toList) "a = \"x b=2\"".toList :=
    @Writes.pair ['a'] "x b=2".toList [' '] [' '] _ (by decide) (forall_mem_of_all (by decide))
      (forall_mem_of_all (by decide)) (forall_mem_of_all (by decide))
      (@WritesValue.quoted '"' _ (by decide) (by decide))
  have hsingle : Writes ("b".toList, "1".toList) "b='1'".toList :=
    @Writes.pair ['b'] ['1'] [] [] _ (by decide) (forall_mem_of_all (by decide)) nofun nofun
      (@WritesValue.quoted '\'' _ (by decide) (by decide))
  have hagain : Writes ("a".toList, "c".toList) "a=c".toList :=
    @Writes.pair ['a'] ['c'] [] [] _ (by decide) (forall_mem_of_all (by decide)) nofun nofun
      (.bare (by decide) (forall_mem_of_all (by decide)))
  have hbare : Writes ("d.e".toList, "g='h".toList) "d.e =g='h".toList :=
    @Writes.pair "d.e".toList "g='h".toList [' '] [] _ (by decide)
      (forall_mem_of_all (by decide)) (forall_mem_of_all (by decide)) nofun
      (.bare (by decide) (forall_mem_of_all (by decide)))
  have hwritten : List.Forall₂ (fun p text ↦ Writes (p.1.toList, p.2.toList) text)
      [("a", "x b=2"), ("b", "1"), ("a", "c"), ("d.e", "g='h")] _ :=
    .cons hquoted (.cons hsingle (.cons hagain (.cons hbare .nil)))
  have hblank : isBlank ' ' = true := by decide
  have htiles : Tiles ["a = \"x b=2\"".toList, "b='1'".toList, "a=c".toList, "d.e =g='h".toList]
      "a = \"x b=2\"  b='1' a=c d.e =g='h".toList :=
    .cons _ hblank (.blank hblank (.cons _ hblank (.cons _ hblank (.last _))))
  obtain ⟨hkeys, hlookup, hagrees⟩ :=
    namedParameters_of_written ⟨"see", "a = \"x b=2\"  b='1' a=c d.e =g='h", 1⟩ hwritten htiles
  exact ⟨_, _, _, rfl, hwritten, htiles, hkeys, hlookup "a", hagrees "d.e"⟩

end Tag

end JavaOutline
