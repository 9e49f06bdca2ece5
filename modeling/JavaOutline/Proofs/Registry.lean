import JavaOutline.Registry
import Mathlib.Data.List.Induction
import Mathlib.Data.List.Nodup

/-! # What a registry indexes

A registry that has taken up some listings, one after the other, is determined by them: it keeps
those whose name did not occur before, and files each under the package of its unit.  The invariant
is `Registry.Indexes`; a listing, a package and a whole unit each keep it. -/

namespace JavaOutline

variable {υ τ : Type}

/-! ## Listings -/

/-- A type as a unit lists it, with its qualified name. -/
structure Listing (υ τ : Type) where
  unit : υ
  name : String
  type : τ

namespace Listing

/-- Whether the name of the listing at a place occurs before that place. -/
def isRepeated (ls : List (Listing υ τ)) (p : Listing υ τ × Nat) : Bool :=
  (ls.take p.2).any (·.name == p.1.name)

/-- The listings whose names did not occur before. -/
def firsts (ls : List (Listing υ τ)) : List (Listing υ τ) :=
  (ls.zipIdx.filter fun p ↦ !isRepeated ls p).map (·.1)

/-- The listings whose names occurred before. -/
def repeats (ls : List (Listing υ τ)) : List (Listing υ τ) :=
  (ls.zipIdx.filter (isRepeated ls)).map (·.1)

/-- The types of the listings whose units belong to a package. -/
def ofPackage (package : υ → String) (p : String) (ls : List (Listing υ τ)) : List τ :=
  (ls.filter fun l ↦ package l.unit == p).map (·.type)

theorem length_firsts_add_length_repeats (ls : List (Listing υ τ)) :
    (firsts ls).length + (repeats ls).length = ls.length := by
  have h := List.length_eq_length_filter_add (l := ls.zipIdx) (isRepeated ls)
  rw [List.length_zipIdx] at h
  rw [firsts, repeats, List.length_map, List.length_map, h, Nat.add_comm]

theorem firsts_sublist (ls : List (Listing υ τ)) : List.Sublist (firsts ls) ls := by
  have h : List.Sublist (firsts ls) (ls.zipIdx.map (·.1)) := List.filter_sublist.map _
  rwa [List.zipIdx_map_fst] at h

/-- Whether a name occurs before a place is not affected by what is appended. -/
theorem isRepeated_append {ls : List (Listing υ τ)} {p : Listing υ τ × Nat}
    (hp : p ∈ ls.zipIdx) (l : Listing υ τ) : isRepeated (ls ++ [l]) p = isRepeated ls p := by
  have hi : p.2 ≤ ls.length := by
    have := List.snd_lt_of_mem_zipIdx hp
    omega
  rw [isRepeated, List.take_append_of_le_length hi, isRepeated]

theorem firsts_concat (ls : List (Listing υ τ)) (l : Listing υ τ) :
    firsts (ls ++ [l]) = if ls.any (·.name == l.name) then firsts ls else firsts ls ++ [l] := by
  have hl : isRepeated (ls ++ [l]) (l, ls.length) = ls.any (·.name == l.name) := by
    simp [isRepeated]
  have hls : (ls.zipIdx.filter fun p ↦ !isRepeated (ls ++ [l]) p) =
      ls.zipIdx.filter fun p ↦ !isRepeated ls p :=
    List.filter_congr fun p hp ↦ by rw [isRepeated_append hp]
  rw [firsts, List.zipIdx_append, List.filter_append, hls, firsts]
  by_cases h : ls.any (·.name == l.name) <;> simp [hl, h]

theorem repeats_concat (ls : List (Listing υ τ)) (l : Listing υ τ) :
    repeats (ls ++ [l]) = if ls.any (·.name == l.name) then repeats ls ++ [l] else repeats ls := by
  have hl : isRepeated (ls ++ [l]) (l, ls.length) = ls.any (·.name == l.name) := by
    simp [isRepeated]
  have hls : ls.zipIdx.filter (isRepeated (ls ++ [l])) = ls.zipIdx.filter (isRepeated ls) :=
    List.filter_congr fun p hp ↦ isRepeated_append hp l
  rw [repeats, List.zipIdx_append, List.filter_append, hls, repeats]
  by_cases h : ls.any (·.name == l.name) <;> simp [hl, h]

/-- A name is looked up among the first listings as among all. -/
theorem find?_firsts (ls : List (Listing υ τ)) (n : String) :
    (firsts ls).find? (·.name == n) = ls.find? (·.name == n) := by
  induction ls using List.reverseRecOn with
  | nil => rfl
  | append_singleton ls l ih =>
    rw [firsts_concat, List.find?_append]
    split
    next h =>
      rw [ih]
      by_cases hn : l.name = n
      · have hs : (ls.find? (·.name == n)).isSome := by
          rw [List.find?_isSome]
          rw [List.any_eq_true] at h
          exact hn ▸ h
        rw [Option.or_of_isSome hs]
      · rw [List.find?_singleton, if_neg (by simpa using hn), Option.or_none]
    next => rw [List.find?_append, ih]

theorem any_firsts (ls : List (Listing υ τ)) (n : String) :
    (firsts ls).any (·.name == n) = ls.any (·.name == n) := by
  rw [← List.isSome_find?, ← List.isSome_find?, find?_firsts]

theorem nodup_names_firsts (ls : List (Listing υ τ)) : ((firsts ls).map (·.name)).Nodup := by
  induction ls using List.reverseRecOn with
  | nil => exact List.nodup_nil
  | append_singleton ls l ih =>
    rw [firsts_concat]
    split
    next => exact ih
    next h =>
      rw [← any_firsts] at h
      rw [List.map_append, List.nodup_append]
      refine ⟨ih, List.pairwise_singleton _ _, ?_⟩
      rintro n hn m hm rfl
      obtain ⟨l', hl', rfl⟩ := List.mem_map.1 hn
      exact h (List.any_eq_true.2 ⟨l', hl', by simpa using hm⟩)

end Listing

namespace Registry

open Listing

variable {package : υ → String} {r : Registry υ τ} {us : List υ} {ls : List (Listing υ τ)}

/-! ## The invariant -/

/-- A registry that has taken up these units with these listings. -/
structure Indexes (package : υ → String) (us : List υ) (ls : List (Listing υ τ))
    (r : Registry υ τ) : Prop where
  /-- The units are kept as they came. -/
  units : r.units = us
  /-- The first listing of each name is kept. -/
  types : r.types = (firsts ls).map fun l ↦ (l.name, l.type)
  /-- There is one package for each name of a package, and it lists what is kept of its units. -/
  packages : r.packages =
    (us.map package).eraseDups.map fun p ↦ (p, ofPackage package p (firsts ls))

theorem Indexes.empty : Indexes package [] [] ({} : Registry υ τ) := ⟨rfl, rfl, rfl⟩

theorem Indexes.type?_eq (h : Indexes package us ls r) (n : String) :
    r.type? n = (ls.find? (·.name == n)).map (·.type) := by
  rw [type?, h.types, ← find?_firsts]
  induction firsts ls with
  | nil => rfl
  | cons l ls ih =>
    rw [List.map_cons, List.lookup_cons, List.find?_cons, ih, BEq.comm (b := l.name)]
    cases l.name == n <;> rfl

theorem Indexes.isSome_type? (h : Indexes package us ls r) (n : String) :
    (r.type? n).isSome = ls.any (·.name == n) := by
  rw [h.type?_eq, Option.isSome_map, List.isSome_find?]

theorem Indexes.names_packages (h : Indexes package us ls r) :
    r.packages.map (·.1) = (us.map package).eraseDups := by
  rw [h.packages, List.map_map]
  exact List.map_id _

/-- If a type has one name only, the package of its unit lists what is kept of it, and no other
package does. -/
theorem Indexes.exists_package (h : Indexes package us ls r) (hls : ∀ l ∈ ls, l.unit ∈ us)
    {f : τ → String} (hn : ∀ l ∈ ls, l.name = f l.type) {l : Listing υ τ}
    (hl : l ∈ firsts ls) :
    ∃ p ∈ r.packages, p.1 = package l.unit ∧ l.type ∈ p.2 ∧
      ∀ q ∈ r.packages, l.type ∈ q.2 → q = p := by
  have hmem {l : Listing υ τ} (hl : l ∈ firsts ls) : l ∈ ls := (firsts_sublist ls).mem hl
  have hu : package l.unit ∈ (us.map package).eraseDups :=
    List.mem_eraseDups.2 (List.mem_map_of_mem (hls l (hmem hl)))
  rw [h.packages]
  refine ⟨_, List.mem_map_of_mem hu, rfl, ?_, ?_⟩
  · exact List.mem_map_of_mem (List.mem_filter.2 ⟨hl, beq_self_eq_true _⟩)
  · intro q hq hlq
    obtain ⟨p, -, rfl⟩ := List.mem_map.1 hq
    obtain ⟨l', hl', ht⟩ := List.mem_map.1 hlq
    obtain ⟨hl', hp⟩ := List.mem_filter.1 hl'
    have hnn : l'.name = l.name := by rw [hn l' (hmem hl'), hn l (hmem hl), ht]
    have hll : l' = l := List.inj_on_of_nodup_map (nodup_names_firsts ls) hl' hl hnn
    rw [← beq_iff_eq.1 hp, hll]

/-- A package lists only what is kept. -/
theorem Indexes.mem_types_of_mem_packages (h : Indexes package us ls r) {p : String × List τ}
    (hp : p ∈ r.packages) {t : τ} (ht : t ∈ p.2) : t ∈ r.types.map (·.2) := by
  rw [h.packages] at hp
  obtain ⟨p, -, rfl⟩ := List.mem_map.1 hp
  obtain ⟨l, hl, rfl⟩ := List.mem_map.1 ht
  rw [h.types, List.map_map]
  exact List.mem_map_of_mem (List.mem_of_mem_filter hl)

theorem lookup_map_eq_none_iff {ps : List String} {f : String → List τ} {p : String} :
    (ps.map fun p ↦ (p, f p)).lookup p = none ↔ p ∉ ps := by
  rw [List.lookup_eq_none_iff, List.forall_mem_map]
  constructor
  · exact fun h hp ↦ absurd rfl (bne_iff_ne.1 (h p hp))
  · exact fun h q hq ↦ bne_iff_ne.2 fun hpq ↦ h (hpq ▸ hq)

/-! ## Taking up a unit -/

/-- A unit opens its package if no unit before it did; nothing is listed there yet. -/
theorem Indexes.openPackage (h : Indexes package us ls r) (hls : ∀ l ∈ ls, l.unit ∈ us) (u : υ) :
    Indexes package (us ++ [u]) ls
      (Registry.openPackage { r with units := r.units ++ [u] } (package u)) := by
  have hp : (r.package? (package u)).isSome = true ↔ package u ∈ us.map package := by
    rw [Option.isSome_iff_ne_none, package?, h.packages, Ne, lookup_map_eq_none_iff, not_not,
      List.mem_eraseDups]
  rw [Registry.openPackage]
  split
  next hs =>
    refine ⟨by rw [h.units], h.types, ?_⟩
    have hu : [package u].removeAll (us.map package) = [] := by
      rw [List.removeAll, List.filter_singleton, List.elem_eq_mem, decide_eq_true (hp.1 hs)]
      rfl
    rw [h.packages, List.map_append, List.map_singleton, List.eraseDups_append, hu,
      List.eraseDups_nil, List.append_nil]
  next hs =>
    refine ⟨by rw [h.units], h.types, ?_⟩
    have hu : package u ∉ us.map package := fun hu ↦ hs (hp.2 hu)
    have hr : [package u].removeAll (us.map package) = [package u] := by
      rw [List.removeAll, List.filter_singleton, List.elem_eq_mem, decide_eq_false hu]
      rfl
    have hn : ofPackage package (package u) (firsts ls) = [] := by
      rw [ofPackage, List.map_eq_nil_iff, List.filter_eq_nil_iff]
      intro l hl hlu
      exact hu (List.mem_map.2 ⟨l.unit, hls l ((firsts_sublist ls).mem hl), by simpa using hlu⟩)
    rw [h.packages, List.map_append, List.map_singleton, List.eraseDups_append, hr,
      show [package u].eraseDups = [package u] from rfl, List.map_append, List.map_singleton, hn]

theorem units_addTypes (p : String) (ts : List (String × τ)) (r : Registry υ τ) :
    (r.addTypes p ts).1.units = r.units := by
  induction ts generalizing r with
  | nil => rfl
  | cons t ts ih =>
    rw [Registry.addTypes]
    split
    · exact ih r
    · exact ih _

theorem units_register (r : Registry υ τ) (u : υ) (p : String) (ts : List (String × τ)) :
    (r.register u p ts).1.units = r.units ++ [u] := by
  rw [register, units_addTypes, openPackage]
  split <;> rfl

/-- A listing whose name is taken changes nothing. -/
theorem Indexes.skip (h : Indexes package us ls r) {l : Listing υ τ}
    (hn : (r.type? l.name).isSome = true) : Indexes package us (ls ++ [l]) r := by
  rw [h.isSome_type?] at hn
  have hf : firsts (ls ++ [l]) = firsts ls := by rw [firsts_concat, if_pos hn]
  exact ⟨h.units, hf ▸ h.types, hf ▸ h.packages⟩

/-- A listing whose name is free is kept and filed under its package. -/
theorem Indexes.keep (h : Indexes package us ls r) {l : Listing υ τ}
    (hn : (r.type? l.name).isSome = false) :
    Indexes package us (ls ++ [l])
      { r with
        types := r.types ++ [(l.name, l.type)]
        packages := appendUnder (package l.unit) l.type r.packages } := by
  rw [h.isSome_type?] at hn
  have hf : firsts (ls ++ [l]) = firsts ls ++ [l] := by rw [firsts_concat, if_neg (by simp [hn])]
  refine ⟨h.units, ?_, ?_⟩
  · rw [hf, h.types, List.map_append, List.map_singleton]
  · rw [hf, h.packages, appendUnder, List.map_map]
    refine List.map_congr_left fun p _ ↦ ?_
    by_cases hp : p = package l.unit
    · simp [ofPackage, hp]
    · simp [ofPackage, hp, Ne.symm hp]

theorem Indexes.addTypes (h : Indexes package us ls r) (u : υ) (ts : List (String × τ)) :
    Indexes package us (ls ++ ts.map fun t ↦ ⟨u, t.1, t.2⟩) (r.addTypes (package u) ts).1 := by
  induction ts generalizing r ls with
  | nil => rw [List.map_nil, List.append_nil]; exact h
  | cons t ts ih =>
    rw [List.map_cons, List.append_cons]
    by_cases hn : (r.type? t.1).isSome = true
    · rw [Registry.addTypes, if_pos hn]
      exact ih (h.skip hn)
    · rw [Registry.addTypes, if_neg hn]
      exact ih (h.keep (l := ⟨u, t.1, t.2⟩) (Bool.eq_false_iff.2 hn))

/-- The names that come back are those of the listings that are not kept. -/
theorem Indexes.repeats_addTypes (h : Indexes package us ls r) (u : υ) (ts : List (String × τ)) :
    (repeats (ls ++ ts.map fun t ↦ ⟨u, t.1, t.2⟩)).map (fun l ↦ (l.unit, l.name)) =
      (repeats ls).map (fun l ↦ (l.unit, l.name)) ++
        (r.addTypes (package u) ts).2.map fun n ↦ (u, n) := by
  induction ts generalizing r ls with
  | nil => simp [Registry.addTypes]
  | cons t ts ih =>
    rw [List.map_cons, List.append_cons]
    by_cases hn : (r.type? t.1).isSome = true
    · rw [ih (h.skip hn), repeats_concat, if_pos (h.isSome_type? t.1 ▸ hn), Registry.addTypes,
        if_pos hn, List.map_append, List.append_assoc]
      rfl
    · rw [ih (h.keep (l := ⟨u, t.1, t.2⟩) (Bool.eq_false_iff.2 hn)), repeats_concat,
        if_neg (h.isSome_type? t.1 ▸ hn), Registry.addTypes, if_neg hn]

/-- A unit is taken up with all its listings. -/
theorem Indexes.register (h : Indexes package us ls r) (hls : ∀ l ∈ ls, l.unit ∈ us) (u : υ)
    (ts : List (String × τ)) :
    Indexes package (us ++ [u]) (ls ++ ts.map fun t ↦ ⟨u, t.1, t.2⟩)
      (r.register u (package u) ts).1 :=
  (h.openPackage hls u).addTypes u ts

theorem Indexes.repeats_register (h : Indexes package us ls r) (hls : ∀ l ∈ ls, l.unit ∈ us)
    (u : υ) (ts : List (String × τ)) :
    (repeats (ls ++ ts.map fun t ↦ ⟨u, t.1, t.2⟩)).map (fun l ↦ (l.unit, l.name)) =
      (repeats ls).map (fun l ↦ (l.unit, l.name)) ++
        (r.register u (package u) ts).2.map fun n ↦ (u, n) :=
  (h.openPackage hls u).repeats_addTypes u ts

/-! ## What a registry lists for good -/

/-- What is found in the first registry is found in the second one. -/
structure Extends (r r' : Registry υ τ) : Prop where
  type : ∀ {n t}, r.type? n = some t → r'.type? n = some t
  package : ∀ {p ts}, r.package? p = some ts → ∃ ts', r'.package? p = some ts' ∧ ts ⊆ ts'

variable {r' r'' : Registry υ τ} {n p q : String} {t : τ} {ts : List (String × τ)}

namespace Extends

theorem refl (r : Registry υ τ) : Extends r r := ⟨id, fun h ↦ ⟨_, h, List.Subset.refl _⟩⟩

theorem trans (h : Extends r r') (h' : Extends r' r'') : Extends r r'' where
  type ht := h'.type (h.type ht)
  package hp := by
    obtain ⟨ts', hp', hts⟩ := h.package hp
    obtain ⟨ts'', hp'', hts'⟩ := h'.package hp'
    exact ⟨ts'', hp'', List.Subset.trans hts hts'⟩

theorem isSome_package? (h : Extends r r') (hp : (r.package? p).isSome = true) :
    (r'.package? p).isSome = true := by
  obtain ⟨ts, hts⟩ := Option.isSome_iff_exists.1 hp
  obtain ⟨ts', hts', -⟩ := h.package hts
  rw [hts']
  rfl

end Extends

theorem lookup_appendUnder (t : τ) (ps : List (String × List τ)) :
    (appendUnder p t ps).lookup q =
      (ps.lookup q).map fun ts ↦ if q = p then ts ++ [t] else ts := by
  induction ps with
  | nil => rfl
  | cons c ps ih =>
    obtain ⟨m, ss⟩ := c
    rw [appendUnder, List.map_cons, ← appendUnder]
    by_cases hq : q = m
    · subst hq
      by_cases hp : q = p <;> simp [hp]
    · have htail (ss : List τ) (ps : List (String × List τ)) :
          ((m, ss) :: ps).lookup q = ps.lookup q := by
        rw [List.lookup_cons, beq_eq_false_iff_ne.2 hq]
      dsimp only
      split <;> rw [htail, htail, ih]

theorem extends_openPackage (r : Registry υ τ) (u : υ) (p : String) :
    Extends r (openPackage { r with units := r.units ++ [u] } p) := by
  rw [openPackage]
  split
  · exact ⟨id, fun h ↦ ⟨_, h, List.Subset.refl _⟩⟩
  · refine ⟨id, fun {q ts} h ↦ ⟨ts, ?_, List.Subset.refl _⟩⟩
    have h : r.packages.lookup q = some ts := h
    rw [package?, List.lookup_append, h, Option.some_or]

theorem isSome_package?_openPackage (r : Registry υ τ) (p : String) :
    ((openPackage r p).package? p).isSome = true := by
  rw [openPackage]
  split
  next h => exact h
  next h =>
    have h : r.packages.lookup p = none := Option.not_isSome_iff_eq_none.1 h
    rw [package?, List.lookup_append, h, Option.none_or, List.lookup_cons_self]
    rfl

theorem extends_keep (r : Registry υ τ) (n : String) (t : τ) (p : String) :
    Extends r
      { r with types := r.types ++ [(n, t)], packages := appendUnder p t r.packages } where
  type {m s} hm := by
    have hm : r.types.lookup m = some s := hm
    rw [type?, List.lookup_append, hm, Option.some_or]
  package {q ss} hq := by
    have hq : r.packages.lookup q = some ss := hq
    refine ⟨_, by rw [package?, lookup_appendUnder, hq]; rfl, ?_⟩
    split
    · exact List.subset_append_left ss [t]
    · exact List.Subset.refl ss

theorem extends_addTypes (p : String) (ts : List (String × τ)) (r : Registry υ τ) :
    Extends r (r.addTypes p ts).1 := by
  induction ts generalizing r with
  | nil => exact .refl r
  | cons t ts ih =>
    rw [addTypes]
    split
    next => exact ih r
    next => exact (extends_keep r t.1 t.2 p).trans (ih _)

theorem extends_register (r : Registry υ τ) (u : υ) (p : String) (ts : List (String × τ)) :
    Extends r (r.register u p ts).1 := (extends_openPackage r u p).trans (extends_addTypes p ts _)

/-- What is found after types have been taken up was found before, or is one of them and filed under
their package. -/
theorem type?_addTypes (hp : (r.package? p).isSome = true)
    (ht : (r.addTypes p ts).1.type? n = some t) :
    r.type? n = some t ∨
      (n, t) ∈ ts ∧ ∃ ss, (r.addTypes p ts).1.package? p = some ss ∧ t ∈ ss := by
  induction ts generalizing r with
  | nil => exact .inl ht
  | cons c ts ih =>
    by_cases hc : (r.type? c.1).isSome = true
    · rw [addTypes, if_pos hc] at ht ⊢
      exact (ih hp ht).imp_right (And.imp_left (List.mem_cons_of_mem c))
    · rw [addTypes, if_neg hc] at ht ⊢
      have hkeep := extends_keep r c.1 c.2 p
      rcases ih (hkeep.isSome_package? hp) ht with h | ⟨hmem, hfiled⟩
      · rw [type?, List.lookup_append, Option.or_eq_some_iff] at h
        rcases h with h | ⟨-, h⟩
        · exact .inl h
        · -- It is the type that has just been taken up.
          obtain ⟨rfl, rfl⟩ : n = c.1 ∧ c.2 = t := by
            rw [List.lookup_cons] at h
            split at h
            next hnc => exact ⟨beq_iff_eq.1 hnc, Option.some.inj h⟩
            next => cases h
          obtain ⟨ss, hss⟩ := Option.isSome_iff_exists.1 hp
          have hss' : (appendUnder p c.2 r.packages).lookup p = some (ss ++ [c.2]) := by
            rw [package?] at hss
            rw [lookup_appendUnder, hss, Option.map_some, if_pos rfl]
          obtain ⟨ss', hss', hsub⟩ := (extends_addTypes p ts
            { r with
              types := r.types ++ [(c.1, c.2)]
              packages := appendUnder p c.2 r.packages }).package hss'
          exact .inr ⟨List.mem_cons_self, ss', hss',
            hsub (List.mem_append_right ss List.mem_cons_self)⟩
      · exact .inr ⟨List.mem_cons_of_mem c hmem, hfiled⟩

theorem type?_register {u : υ} (ht : (r.register u p ts).1.type? n = some t) :
    r.type? n = some t ∨
      (n, t) ∈ ts ∧ ∃ ss, (r.register u p ts).1.package? p = some ss ∧ t ∈ ss := by
  have hopen : (openPackage { r with units := r.units ++ [u] } p).type? n = r.type? n := by
    rw [openPackage]
    split <;> rfl
  rcases type?_addTypes (isSome_package?_openPackage _ p) ht with h | h
  · exact .inl (hopen ▸ h)
  · exact .inr h

/-- A registry keeps nothing but what it has been given. -/
theorem mem_types_addTypes {c : String × τ} (hc : c ∈ (r.addTypes p ts).1.types) :
    c ∈ r.types ∨ c ∈ ts := by
  induction ts generalizing r with
  | nil => exact .inl hc
  | cons d ts ih =>
    rw [addTypes] at hc
    split at hc
    · exact (ih hc).imp_right (List.mem_cons_of_mem d)
    · rcases ih hc with hc | hc
      · rcases List.mem_append.1 hc with hc | hc
        · exact .inl hc
        · exact .inr (List.mem_cons.2 (.inl (List.mem_singleton.1 hc)))
      · exact .inr (List.mem_cons_of_mem d hc)

theorem mem_types_register {u : υ} {c : String × τ} (hc : c ∈ (r.register u p ts).1.types) :
    c ∈ r.types ∨ c ∈ ts := by
  have hopen : (openPackage { r with units := r.units ++ [u] } p).types = r.types := by
    rw [openPackage]
    split <;> rfl
  exact hopen ▸ mem_types_addTypes hc

end Registry

end JavaOutline
