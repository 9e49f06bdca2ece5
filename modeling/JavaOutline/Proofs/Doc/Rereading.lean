import JavaOutline.Proofs.Doc.Partition
import Mathlib.Algebra.Order.BigOperators.Group.List
import Mathlib.Algebra.Order.Ring.Nat

/-! # Writing and reading again

What is read from a comment can be written as a documentation block and read again.  The body comes
back in every round.  The tags need not: a line of a value may lose a star in one round and become a
tag in a later one (`Doc.rereading_converges_stars`).  But each round that changes the tags leaves
less room for their values, since the star is lost, or the line feed in front of the new tag, so
after a while the tags come back too (`Doc.rereading_converges`). -/

namespace JavaOutline

open Text Sink

namespace Doc

/-- What the tags say, apart from their places. -/
def entries (d : Doc) : List (String × String) := d.tags.map Tag.entry

/-- The number of characters in the values of the tags. -/
def valueSize (ts : List Tag) : Nat := (ts.map fun t ↦ t.value.length).sum

/-! ## The room of a line -/

/-- The room that a line fills in the values: a tag line with the beginning of its own value, any
other line with itself and the line feed in front of it. -/
def room (l : List Char) : Nat :=
  match tagLine? l with
  | some (_, v) => v.length
  | none => l.length + 1

theorem room_of_isContinuation {l : List Char} (h : isContinuation l = true) :
    room l = l.length + 1 := by
  rw [room, isContinuation_iff.1 h]

theorem room_of_tagLine? {l n v : List Char} (h : tagLine? l = some (n, v)) :
    room l = v.length := by
  rw [room, h]

theorem room_lt_of_startsTag {l : List Char} (h : startsTag l = true) : room l < l.length + 1 := by
  rw [← isSome_tagLine?, Option.isSome_iff_exists] at h
  obtain ⟨⟨n, v⟩, h⟩ := h
  obtain ⟨-, -, gap, hl, -⟩ := of_tagLine? h
  have hlength := congrArg List.length hl
  rw [room_of_tagLine? h]
  simp only [List.length_append] at hlength
  omega

theorem room_le (l : List Char) : room l ≤ l.length + 1 := by
  by_cases h : startsTag l = true
  · exact (room_lt_of_startsTag h).le
  · apply le_of_eq
    apply room_of_isContinuation
    rw [isContinuation_eq_not_startsTag, Bool.eq_false_iff.2 h]
    rfl

theorem room_dropStar_le (l : List Char) : room (dropStar l) ≤ l.length + 1 :=
  (room_le _).trans (Nat.succ_le_succ (isInfix_dropStar l).length_le)

/-- A line that is taken for something else fills less room than it did. -/
theorem room_dropStar_lt {l : List Char} (hs : startsBlank l = false) (he : endsBlank l = false)
    (h : ¬(l.head? ≠ some '*' ∧ startsTag l = false)) : room (dropStar l) < l.length + 1 := by
  by_cases hstar : l.head? = some '*'
  · exact (room_le _).trans_lt (Nat.succ_lt_succ (length_dropStar_lt hstar))
  · have htag : startsTag l = true := by
      by_contra htag
      exact h ⟨hstar, Bool.eq_false_iff.2 htag⟩
    rw [dropStar_eq_self hs he hstar]
    exact room_lt_of_startsTag htag

/-! ## The values of the tags on some lines -/

theorem length_unlines (ls : List (List Char)) :
    (unlines ls).length = (ls.map fun l ↦ l.length + 1).sum - 1 := by
  induction ls with
  | nil => rfl
  | cons l ls ih =>
    cases ls with
    | nil => rfl
    | cons m ls =>
      rw [unlines, joinWith, ← unlines, List.length_append, List.length_append, ih]
      simp only [List.map_cons, List.sum_cons, List.length_singleton]
      omega

theorem length_tagValue_le (first : List Char) (more : List (List Char)) :
    (tagValue first more).length ≤ first.length + (more.map fun l ↦ l.length + 1).sum := by
  have hsub : (trimEmptyLines (first :: more.map trim)).Sublist (first :: more.map trim) :=
    (isPrefix_dropEndWhile _ _).sublist.trans (List.dropWhile_sublist _)
  have hkept := (hsub.map fun l ↦ l.length + 1).sum_le_sum fun _ _ ↦ Nat.zero_le _
  have htrim : ((more.map trim).map fun l ↦ l.length + 1).sum ≤
      (more.map fun l ↦ l.length + 1).sum := by
    rw [List.map_map]
    exact List.sum_le_sum fun l _ ↦ Nat.succ_le_succ (length_trim_le l)
  rw [tagValue, length_unlines]
  rw [List.map_cons, List.sum_cons] at hkept
  omega

/-- The values have no more characters than the lines from the first tag line on have room for. -/
theorem valueSize_tagsFrom_le (n : Int) (ls : List (List Char)) :
    valueSize (tagsFrom n ls) ≤ ((ls.dropWhile isContinuation).map room).sum := by
  induction ls generalizing n with
  | nil => exact le_rfl
  | cons l ls ih =>
    have ih := ih (n + 1)
    rw [tagsFrom]
    cases ht : tagLine? l with
    | none =>
      have hl := isContinuation_iff.2 ht
      rwa [List.dropWhile_cons_of_pos hl]
    | some p =>
      obtain ⟨name, v⟩ := p
      have hl := not_isContinuation_of_tagLine? ht
      have hmore : ((ls.takeWhile isContinuation).map fun l ↦ l.length + 1).sum =
          ((ls.takeWhile isContinuation).map room).sum := by
        refine congrArg List.sum (List.map_congr_left ?_)
        intro m hm
        exact (room_of_isContinuation (List.mem_takeWhile_imp hm)).symm
      have hvalue := length_tagValue_le v (ls.takeWhile isContinuation)
      rw [hmore] at hvalue
      have hrest := List.takeWhile_append_dropWhile (p := isContinuation) (l := ls)
      have hsum : (ls.map room).sum = ((ls.takeWhile isContinuation).map room).sum +
          ((ls.dropWhile isContinuation).map room).sum := by
        rw [← List.sum_append, ← List.map_append, hrest]
      rw [valueSize] at ih
      rw [List.dropWhile_cons_of_neg hl, List.map_cons, List.sum_cons, room_of_tagLine? ht, hsum,
        valueSize, List.map_cons, List.sum_cons, String.length_ofList]
      omega

/-- An empty line at the end is dropped from every value. -/
theorem tagsFrom_concat_nil (n : Int) (ls : List (List Char)) :
    tagsFrom n (ls ++ [[]]) = tagsFrom n ls := by
  have hvalue (v : List Char) (ls : List (List Char)) :
      tagValue v ((ls ++ [[]]).takeWhile isContinuation) =
        tagValue v (ls.takeWhile isContinuation) := by
    rw [List.takeWhile_append]
    split
    · next h =>
      have hls : ls.takeWhile isContinuation = ls := (List.takeWhile_prefix _).eq_of_length h
      have hnil : ([[]] : List (List Char)).takeWhile isContinuation = [[]] := rfl
      rw [hls, hnil, tagValue, List.map_append, ← List.cons_append,
        trimEmptyLines_append_of_forall _ (by simp [trim, trimStart, trimEnd]), tagValue]
    · rfl
  induction ls generalizing n with
  | nil => rfl
  | cons l ls ih =>
    rw [List.cons_append, tagsFrom, tagsFrom, ih]
    simp only [hvalue]

/-! ## One round of tags -/

theorem of_mem_tail_of_isTidy {t : Tag} (ht : t.IsTidy) {l : List Char}
    (hl : l ∈ (lines t.value.toList).tail) : startsBlank l = false ∧ endsBlank l = false := by
  by_cases hv : t.value = ""
  · rw [hv] at hl
    cases hl
  · obtain ⟨-, hb, hs⟩ := ht.resolve_left hv
    exact ⟨hs l hl, hb l (List.mem_of_mem_tail hl)⟩

theorem length_value (t : Tag) {f : List Char} {r : List (List Char)}
    (hl : lines t.value.toList = f :: r) :
    t.value.length = f.length + (r.map fun l ↦ l.length + 1).sum := by
  have h := length_unlines (lines t.value.toList)
  rw [unlines_lines, String.length_toList, hl, List.map_cons, List.sum_cons] at h
  omega

/-- The lines of a tag that is written have no more room than its value, and less unless they are
read as they were written. -/
theorem room_docLines {t : Tag} (hn : t.IsNamed) (ht : t.IsTidy) :
    ((t.docLines.map dropStar).map room).sum ≤ t.value.length ∧
      (¬t.IsPlain → ((t.docLines.map dropStar).map room).sum < t.value.length) := by
  have hv := (List.cons_head_tail (lines_ne_nil t.value.toList)).symm
  obtain ⟨l, hl, hs⟩ := docLines_of_isTidy hn ht hv
  rw [hl, List.map_cons, List.sum_cons, room_of_tagLine? hs, length_value t hv, List.map_map]
  constructor
  · exact Nat.add_le_add_left (List.sum_le_sum fun m _ ↦ room_dropStar_le m) _
  · intro hp
    rw [Tag.IsPlain] at hp
    push Not at hp
    obtain ⟨m, hm, hp⟩ := hp
    obtain ⟨hsb, heb⟩ := of_mem_tail_of_isTidy ht hm
    refine Nat.add_lt_add_left (List.sum_lt_sum _ _ (fun m _ ↦ room_dropStar_le m) ?_) _
    exact ⟨m, hm, room_dropStar_lt hsb heb fun h ↦ absurd h.2 (hp h.1)⟩

variable {ts : List Tag}

theorem valueSize_tagLines_le (n : Int) : valueSize (tagsFrom n (tagLines ts)) ≤
    (ts.map fun t ↦ ((t.docLines.map dropStar).map room).sum).sum := by
  have hdrop := ((List.dropWhile_sublist isContinuation
    (l := (ts.flatMap Tag.docLines).map dropStar)).map room).sum_le_sum fun _ _ ↦ Nat.zero_le _
  have hflat : (((ts.flatMap Tag.docLines).map dropStar).map room).sum =
      (ts.map fun t ↦ ((t.docLines.map dropStar).map room).sum).sum := by
    rw [List.map_flatMap, List.map_flatMap, List.flatMap, List.sum_flatten, List.map_map]
    rfl
  rw [tagLines, tagsFrom_concat_nil, ← hflat]
  exact (valueSize_tagsFrom_le n _).trans hdrop

/-- If a tag is not read as it was written, the values lose characters. -/
theorem valueSize_tagLines_lt (hn : ∀ t ∈ ts, t.IsNamed) (ht : ∀ t ∈ ts, t.IsTidy)
    (hp : ¬∀ t ∈ ts, t.IsPlain) (n : Int) :
    valueSize (tagsFrom n (tagLines ts)) < valueSize ts := by
  push Not at hp
  obtain ⟨t, hmem, hp⟩ := hp
  refine (valueSize_tagLines_le n).trans_lt ?_
  refine List.sum_lt_sum _ _ (fun t h ↦ (room_docLines (hn t h) (ht t h)).1) ?_
  exact ⟨t, hmem, (room_docLines (hn t hmem) (ht t hmem)).2 hp⟩

theorem names_tagsFrom (n : Int) (ls : List (List Char)) :
    (tagsFrom n ls).map (·.name.toList) = (ls.filter startsTag).map nameIn := by
  have h := congrArg (List.map Prod.snd) (map_tagsFrom n 0 ls)
  have hfst : (ls.zipIdx.filter fun p ↦ startsTag p.1).map Prod.fst = ls.filter startsTag := by
    conv_rhs => rw [← List.zipIdx_map_fst 0 ls, List.filter_map]
    rfl
  rw [Int.natCast_zero, Int.add_zero, List.map_map, List.map_map] at h
  rw [← hfst, List.map_map]
  exact h

/-- Every tag that is written is found again by its name. -/
theorem names_sublist (hn : ∀ t ∈ ts, t.IsNamed) (ht : ∀ t ∈ ts, t.IsTidy) (n : Int) :
    (ts.map (·.name)).Sublist ((tagsFrom n (tagLines ts)).map (·.name)) := by
  have hfound : (ts.map (·.name.toList)).Sublist (((tagLines ts).filter startsTag).map nameIn) := by
    induction ts with
    | nil => exact List.nil_sublist _
    | cons t ts ih =>
      obtain ⟨hnt, hn⟩ := List.forall_mem_cons.1 hn
      obtain ⟨htt, ht⟩ := List.forall_mem_cons.1 ht
      obtain ⟨l, hl, hs⟩ := docLines_of_isTidy hnt htt
        (List.cons_head_tail (lines_ne_nil t.value.toList)).symm
      obtain ⟨-, hname, -⟩ := of_tagLine? hs
      have hstart : startsTag l = true := by rw [← isSome_tagLine?, hs]; rfl
      rw [tagLines_cons, hl, List.cons_append, List.filter_cons_of_pos hstart, List.map_cons,
        List.map_cons, hname, List.filter_append, List.map_append]
      exact ((ih hn ht).trans (List.sublist_append_right _ _)).cons_cons _
  have hstrings := hfound.map String.ofList
  rw [← names_tagsFrom n, List.map_map, List.map_map] at hstrings
  simpa [Function.comp_def] using hstrings

/-! ## Rounds -/

section Rounds

variable (h : Header) (unit : String) (n : Int)

/-- A round: a header gets what was read, its documentation block is written and read. -/
def reread (d : Doc) : Doc := read ((h.withDoc d).docBlock unit) n

/-- What is read after some rounds. -/
def rounds (d : Doc) (i : Nat) : Doc := (reread h unit n)^[i] d

theorem rounds_succ (d : Doc) (i : Nat) :
    rounds h unit n d (i + 1) = reread h unit n (rounds h unit n d i) :=
  Function.iterate_succ_apply' _ i d

theorem isReadable_read (s : String) (m : Int) : (h.withDoc (read s m)).IsReadable :=
  (h.agrees_withDoc (read s m)).isReadable (areClean_commentLines s.toList)

variable {h} {d : Doc}

theorem isReadable_rounds (hd : (h.withDoc d).IsReadable) (i : Nat) :
    (h.withDoc (rounds h unit n d i)).IsReadable := by
  cases i with
  | zero => exact hd
  | succ i =>
    rw [rounds_succ]
    exact isReadable_read h _ n

theorem exists_reread (hd : (h.withDoc d).IsReadable) :
    ∃ m, reread h unit n d = { body := d.body, tags := tagsFrom m (tagLines d.tags) } := by
  have hb : ∀ c ∈ margin { unit }, isBlank c = true ∧ c ≠ '\n' := by simp [margin, repeated]
  exact Header.exists_read_writeDoc hd (s := { unit }) rfl rfl rfl hb n

theorem body_reread (hd : (h.withDoc d).IsReadable) : (reread h unit n d).body = d.body := by
  obtain ⟨m, hm⟩ := exists_reread unit n hd
  rw [hm]

theorem entries_reread_iff (hd : (h.withDoc d).IsReadable) :
    (reread h unit n d).entries = d.entries ↔ ∀ t ∈ d.tags, t.IsPlain := by
  obtain ⟨m, hm⟩ := exists_reread unit n hd
  rw [hm]
  exact tagsFrom_tagLines_iff hd.named hd.tidy m

/-- A round that changes the tags makes their values shorter. -/
theorem valueSize_reread_lt (hd : (h.withDoc d).IsReadable)
    (hne : (reread h unit n d).entries ≠ d.entries) :
    valueSize (reread h unit n d).tags < valueSize d.tags := by
  have hp := mt (entries_reread_iff unit n hd).2 hne
  obtain ⟨m, hm⟩ := exists_reread unit n hd
  rw [hm]
  exact valueSize_tagLines_lt hd.named hd.tidy hp m

theorem names_reread (hd : (h.withDoc d).IsReadable) :
    (d.tags.map (·.name)).Sublist ((reread h unit n d).tags.map (·.name)) := by
  obtain ⟨m, hm⟩ := exists_reread unit n hd
  rw [hm]
  exact names_sublist hd.named hd.tidy m

theorem isPlain_of_entries_eq {d e : Doc} (he : e.entries = d.entries)
    (hp : ∀ t ∈ d.tags, t.IsPlain) : ∀ t ∈ e.tags, t.IsPlain := by
  intro t ht
  have hmem : t.entry ∈ d.entries := he ▸ List.mem_map_of_mem ht
  obtain ⟨u, hu, hut⟩ := List.mem_map.1 hmem
  have hp := hp u hu
  rwa [Tag.IsPlain, (Prod.mk.inj hut).2] at hp

/-- Tags that come back once come back in every round. -/
theorem entries_rounds (hd : (h.withDoc d).IsReadable) (hp : ∀ t ∈ d.tags, t.IsPlain) (i : Nat) :
    (rounds h unit n d i).entries = d.entries := by
  induction i with
  | zero => rfl
  | succ i ih =>
    rw [rounds_succ, ← ih]
    exact (entries_reread_iff unit n (isReadable_rounds unit n hd i)).2
      (isPlain_of_entries_eq ih hp)

/-- The tags come back after at most as many rounds as their values have characters. -/
theorem exists_rounds_isPlain (hd : (h.withDoc d).IsReadable) :
    ∃ k ≤ valueSize d.tags, ∀ t ∈ (rounds h unit n d k).tags, t.IsPlain := by
  induction hsize : valueSize d.tags using Nat.strong_induction_on generalizing d with
  | _ size ih =>
    by_cases hp : ∀ t ∈ d.tags, t.IsPlain
    · exact ⟨0, Nat.zero_le _, hp⟩
    · have hlt := valueSize_reread_lt unit n hd (mt (entries_reread_iff unit n hd).1 hp)
      rw [hsize] at hlt
      have hnext : (h.withDoc (reread h unit n d)).IsReadable := isReadable_read h _ n
      obtain ⟨k, hk, hplain⟩ := ih _ hlt hnext rfl
      have hfirst : rounds h unit n (reread h unit n d) k = rounds h unit n d (k + 1) :=
        (Function.iterate_succ_apply _ k d).symm
      rw [hfirst] at hplain
      exact ⟨k + 1, hk.trans_lt hlt, hplain⟩

end Rounds

/-- Writing what was read and reading it again, over and over: the body never changes; a round that
changes the tags makes their values shorter, so that they stay as they are after at most as many
rounds as their values had characters; and no name is lost, nor is their order. -/
theorem rereading_converges (h : Header) (s unit : String) (m n : Int) :
    (∀ i, (rounds h unit n (read s m) i).body = (read s m).body) ∧
      (∀ i, (rounds h unit n (read s m) (i + 1)).entries ≠
          (rounds h unit n (read s m) i).entries →
        valueSize (rounds h unit n (read s m) (i + 1)).tags <
          valueSize (rounds h unit n (read s m) i).tags) ∧
      (∃ k ≤ valueSize (read s m).tags, ∀ i, k ≤ i →
        (rounds h unit n (read s m) i).entries = (rounds h unit n (read s m) k).entries) ∧
      ∀ i, ((rounds h unit n (read s m) i).tags.map (·.name)).Sublist
        ((rounds h unit n (read s m) (i + 1)).tags.map (·.name)) := by
  have hread := isReadable_read h s m
  have hround (i : Nat) := isReadable_rounds unit n hread i
  refine ⟨?body, ?sizes, ?settled, ?names⟩
  case body =>
    intro i
    induction i with
    | zero => rfl
    | succ i ih => rw [rounds_succ, body_reread unit n (hround i), ih]
  case sizes =>
    intro i hne
    rw [rounds_succ] at hne ⊢
    exact valueSize_reread_lt unit n (hround i) hne
  case settled =>
    obtain ⟨k, hk, hplain⟩ := exists_rounds_isPlain unit n hread
    refine ⟨k, hk, ?_⟩
    intro i hi
    obtain ⟨j, rfl⟩ := Nat.exists_eq_add_of_le' hi
    have hj := entries_rounds unit n (hround k) hplain j
    rwa [rounds, rounds, ← Function.iterate_add_apply] at hj
  case names =>
    intro i
    rw [rounds_succ]
    exact names_reread unit n (hround i)

/-- Two stars in front of a line of a value are lost in two rounds, and the line becomes a tag. -/
theorem rereading_converges_stars : ∃ (s : String) (d : Nat → Doc),
    s = "/**\n * @x a\n * * * @y b\n */" ∧ d = rounds {} "    " 1 (read s 1) ∧
      (d 0).entries = [("x", "a\n* * @y b")] ∧ (d 1).entries = [("x", "a\n* @y b")] ∧
      valueSize (d 1).tags < valueSize (d 0).tags ∧
      ∀ i, 10 ≤ i → (d i).entries = [("x", "a"), ("y", "b")] := by
  obtain ⟨s, hs⟩ : ∃ s : String, s = "/**\n * @x a\n * * * @y b\n */" := ⟨_, rfl⟩
  obtain ⟨-, hsizes, ⟨k, hk, hsettled⟩, -⟩ := rereading_converges {} s "    " 1 1
  have hzero : (rounds {} "    " 1 (read s 1) 0).entries = [("x", "a\n* * @y b")] := by
    rw [hs]
    decide +kernel
  have hone : (rounds {} "    " 1 (read s 1) 1).entries = [("x", "a\n* @y b")] := by
    rw [hs]
    decide +kernel
  have hten : (rounds {} "    " 1 (read s 1) 10).entries = [("x", "a"), ("y", "b")] := by
    rw [hs]
    decide +kernel
  have hsize : valueSize (read s 1).tags = 10 := by
    rw [hs]
    decide +kernel
  rw [hsize] at hk
  refine ⟨s, _, hs, rfl, hzero, hone, hsizes 0 ?_, ?_⟩
  · rw [hzero, hone]
    decide
  · intro i hi
    rw [hsettled i (hk.trans hi), ← hsettled 10 hk, hten]

end Doc

end JavaOutline
