import JavaOutline.Proofs.Graph.References

/-! # What is live

An object is live if a handle holds it or something live owns it.  Stated for all owners and not for
those in range, because what has not been made owns nothing.

A change makes nothing live that was not live before, apart from new objects, as long as owners take
up only what is held by something else already (`Graph.Fades`). -/

namespace JavaOutline.Graph

variable {g g' : Graph} {e o : EntityId} {u : UnitId}

/-! ## Owners exist -/

theorem lt_of_mem_members (h : e ∈ (g.entity o).form.members) : o < g.entities.length := by
  by_contra ho
  rw [entity, List.getD_eq_default _ _ (Nat.le_of_not_lt ho)] at h
  cases h

theorem lt_of_mem_types (h : e ∈ (g.unit u).types) : u < g.units.length := by
  by_contra hu
  rw [unit, List.getD_eq_default _ _ (Nat.le_of_not_lt hu)] at h
  cases h

theorem lt_of_mem_packageTypes {p : PackageId} (h : e ∈ (g.package p).types) :
    p < g.packages.length := by
  by_contra hp
  rw [package, List.getD_eq_default _ _ (Nat.le_of_not_lt hp)] at h
  cases h

theorem lt_of_registryLists {r : RegistryId} (h : registryLists (g.registry r) e = true) :
    r < g.registries.length := by
  by_contra hr
  rw [registry, registryObject, List.getD_eq_default _ _ (Nat.le_of_not_lt hr)] at h
  cases h

theorem lt_of_mem_units {r : RegistryId} (h : u ∈ (g.registry r).units) :
    r < g.registries.length := by
  by_contra hr
  rw [registry, registryObject, List.getD_eq_default _ _ (Nat.le_of_not_lt hr)] at h
  cases h

/-! ## Being live -/

theorem unitIsLive_iff : g.unitIsLive u = true ↔
    g.isHeld (.unit u) = true ∨
      ∃ r, g.isHeld (.registry r) = true ∧ u ∈ (g.registry r).units := by
  rw [unitIsLive, Bool.or_eq_true, List.any_eq_true]
  refine or_congr_right ⟨?_, ?_⟩
  · rintro ⟨r, -, hr⟩
    exact ⟨r, by simpa using hr⟩
  · rintro ⟨r, hr, hu⟩
    exact ⟨r, List.mem_range.2 (lt_of_mem_units hu), by simpa using ⟨hr, hu⟩⟩

theorem isRoot_iff : g.isRoot e = true ↔
    g.isHeld (.entity e) = true ∨
      (∃ u, e ∈ (g.unit u).types ∧ g.unitIsLive u = true) ∨
      (∃ p, e ∈ (g.package p).types ∧ g.isHeld (.package p) = true) ∨
      ∃ r, registryLists (g.registry r) e = true ∧ g.isHeld (.registry r) = true := by
  rw [isRoot, Bool.or_eq_true, Bool.or_eq_true, Bool.or_eq_true, List.any_eq_true,
    List.any_eq_true, List.any_eq_true, or_assoc, or_assoc]
  refine or_congr_right (or_congr ?_ (or_congr ?_ ?_))
  · constructor
    · rintro ⟨u, -, hu⟩
      exact ⟨u, by simpa using hu⟩
    · rintro ⟨u, ht, hu⟩
      exact ⟨u, List.mem_range.2 (lt_of_mem_types ht), by simpa using ⟨ht, hu⟩⟩
  · constructor
    · rintro ⟨p, -, hp⟩
      exact ⟨p, by simpa using hp⟩
    · rintro ⟨p, ht, hp⟩
      exact ⟨p, List.mem_range.2 (lt_of_mem_packageTypes ht), by simpa using ⟨ht, hp⟩⟩
  · constructor
    · rintro ⟨r, -, hr⟩
      exact ⟨r, by simpa using hr⟩
    · rintro ⟨r, ht, hr⟩
      exact ⟨r, List.mem_range.2 (lt_of_registryLists ht), by simpa using ⟨ht, hr⟩⟩

theorem isLiveWithin_succ_iff {n : Nat} : g.isLiveWithin (n + 1) e = true ↔
    g.isRoot e = true ∨ ∃ o, e ∈ (g.entity o).form.members ∧ g.isLiveWithin n o = true := by
  rw [isLiveWithin, Bool.or_eq_true, List.any_eq_true]
  refine or_congr_right ⟨?_, ?_⟩
  · rintro ⟨o, ho, hl⟩
    exact ⟨o, by simpa using (List.mem_filter.1 ho).2, hl⟩
  · rintro ⟨o, he, hl⟩
    refine ⟨o, List.mem_filter.2 ⟨List.mem_range.2 (lt_of_mem_members he), ?_⟩, hl⟩
    simpa using he

theorem isLiveWithin_of_isRoot (h : g.isRoot e = true) (n : Nat) : g.isLiveWithin n e = true := by
  cases n with
  | zero => exact h
  | succ n => exact isLiveWithin_succ_iff.2 (.inl h)

theorem parentUnit?_eq (g : Graph) (e : EntityId) :
    g.parentUnit? e = (g.entity e).form.unit?.filter g.unitIsLive := by
  rw [parentUnit?]
  cases (g.entity e).form <;> rfl

/-- Which units are live depends on handles and on what registries own. -/
theorem unitIsLive_congr (hh : g'.handles = g.handles)
    (hr : ∀ r, (g'.registry r).units = (g.registry r).units) : g'.unitIsLive = g.unitIsLive := by
  funext u
  rw [Bool.eq_iff_iff, unitIsLive_iff, unitIsLive_iff]
  simp only [isHeld, hh, hr]

theorem isRoot_congr (hh : g'.handles = g.handles)
    (ht : ∀ u, (g'.unit u).types = (g.unit u).types)
    (hp : ∀ p, (g'.package p).types = (g.package p).types)
    (hr : ∀ r, g'.registry r = g.registry r) : g'.isRoot = g.isRoot := by
  funext e
  rw [Bool.eq_iff_iff, isRoot_iff, isRoot_iff, unitIsLive_congr hh fun r ↦ by rw [hr]]
  simp only [isHeld, hh, ht, hp, hr]

/-- Which entities are live depends on handles and on what is owned. -/
theorem isLive_congr (hroot : g'.isRoot = g.isRoot)
    (hm : ∀ e, (g'.entity e).form.members = (g.entity e).form.members) : g'.isLive = g.isLive := by
  have hlive (n : Nat) : g'.isLiveWithin n = g.isLiveWithin n := by
    induction n with
    | zero => exact hroot
    | succ n ih =>
      funext e
      rw [Bool.eq_iff_iff, isLiveWithin_succ_iff, isLiveWithin_succ_iff, hroot, ih]
      simp only [hm]
  exact hlive 2

theorem SameLinks.isRoot (h : SameLinks g g') : g'.isRoot = g.isRoot :=
  isRoot_congr h.handles h.types h.packages h.registry

theorem SameLinks.isLive (h : SameLinks g g') : g'.isLive = g.isLive :=
  isLive_congr h.isRoot h.members

theorem Closed.lt_of_isRoot (hg : g.Closed) (he : g.isRoot e = true) : e < g.entities.length := by
  rcases isRoot_iff.1 he with he | ⟨u, he, -⟩ | ⟨p, he, -⟩ | ⟨r, he, -⟩
  · obtain ⟨p, hp, hpe⟩ := List.any_eq_true.1 he
    have hlt := hg.handles p hp
    rw [beq_iff_eq.1 hpe] at hlt
    exact hlt
  · exact hg.types u e he
  · exact hg.packages p e he
  · exact hg.registries r e he

/-! ## Nothing comes back -/

/-- The object is the next one of its kind to be made. -/
def IsNext (g : Graph) : Ref → Prop
  | .entity e => e = g.entities.length
  | .unit u => u = g.units.length
  | .package p => p = g.packages.length
  | .registry r => r = g.registries.length
  | _ => True

/-- A handle holds a registry that has the package. -/
def HeldBelow (g : Graph) (p : PackageId) : Prop :=
  ∃ r, g.isHeld (.registry r) = true ∧ ∃ c ∈ (g.registryObject r).packages, c.2 = p

/-- What a package of a registry lists, the registry lists. -/
theorem HeldBelow.isRoot {p : PackageId} (h : g.HeldBelow p) (he : e ∈ (g.package p).types) :
    g.isRoot e = true := by
  obtain ⟨r, hr, c, hc, rfl⟩ := h
  refine isRoot_iff.2 (.inr (.inr (.inr ⟨r, registryLists_iff.2 (.inr ?_), hr⟩)))
  exact ⟨_, List.mem_map_of_mem hc, he⟩

/-- Handles and owners take up only what was held already, or new objects. -/
structure Fades (g g' : Graph) : Prop where
  handles : ∀ r, g'.isHeld r = true →
    g.isHeld r = true ∨ g.IsNext r ∨ ∃ p, r = .package p ∧ g.HeldBelow p
  members : ∀ o, ∀ e ∈ (g'.entity o).form.members,
    e ∈ (g.entity o).form.members ∨ g.isRoot e = true
  types : ∀ u, ∀ t ∈ (g'.unit u).types, t ∈ (g.unit u).types ∨ g.isRoot t = true
  packages : ∀ p, ∀ t ∈ (g'.package p).types, t ∈ (g.package p).types ∨ g.isRoot t = true
  lists : ∀ r t, registryLists (g'.registry r) t = true →
    registryLists (g.registry r) t = true ∨ g.isRoot t = true
  units : ∀ r, ∀ u ∈ (g'.registry r).units, u ∈ (g.registry r).units ∨ g.unitIsLive u = true

namespace Fades

/-- A unit that is live was live before, or is new. -/
theorem unitIsLive (h : Fades g g') (hu : g'.unitIsLive u = true) :
    g.unitIsLive u = true ∨ g.units.length ≤ u := by
  rcases unitIsLive_iff.1 hu with hu | ⟨r, hr, hu⟩
  · rcases h.handles _ hu with hu | rfl | ⟨p, hp, -⟩
    · exact .inl (unitIsLive_iff.2 (.inl hu))
    · exact .inr (Nat.le_refl _)
    · cases hp
  · rcases h.units r u hu with hu | hu
    · rcases h.handles _ hr with hr | rfl | ⟨p, hp, -⟩
      · exact .inl (unitIsLive_iff.2 (.inr ⟨r, hr, hu⟩))
      · exact absurd (lt_of_mem_units hu) (Nat.lt_irrefl _)
      · cases hp
    · exact .inl hu

theorem isRoot (h : Fades g g') (he : g'.isRoot e = true) :
    g.isRoot e = true ∨ g.entities.length ≤ e := by
  rcases isRoot_iff.1 he with he | ⟨u, ht, hu⟩ | ⟨p, ht, hp⟩ | ⟨r, ht, hr⟩
  · rcases h.handles _ he with he | rfl | ⟨p, hp, -⟩
    · exact .inl (isRoot_iff.2 (.inl he))
    · exact .inr (Nat.le_refl _)
    · cases hp
  · rcases h.types u e ht with ht | ht
    · rcases h.unitIsLive hu with hu | hu
      · exact .inl (isRoot_iff.2 (.inr (.inl ⟨u, ht, hu⟩)))
      · exact absurd (lt_of_mem_types ht) (Nat.not_lt_of_le hu)
    · exact .inl ht
  · rcases h.packages p e ht with ht | ht
    · rcases h.handles _ hp with hp | rfl | ⟨q, hq, hbelow⟩
      · exact .inl (isRoot_iff.2 (.inr (.inr (.inl ⟨p, ht, hp⟩))))
      · exact absurd (lt_of_mem_packageTypes ht) (Nat.lt_irrefl _)
      · cases hq
        exact .inl (hbelow.isRoot ht)
    · exact .inl ht
  · rcases h.lists r e ht with ht | ht
    · rcases h.handles _ hr with hr | rfl | ⟨p, hp, -⟩
      · exact .inl (isRoot_iff.2 (.inr (.inr (.inr ⟨r, ht, hr⟩))))
      · exact absurd (lt_of_registryLists ht) (Nat.lt_irrefl _)
      · cases hp
    · exact .inl ht

/-- An entity that is live was live before, or is new. -/
theorem isLiveWithin (h : Fades g g') {n : Nat} (he : g'.isLiveWithin n e = true) :
    g.isLiveWithin n e = true ∨ g.entities.length ≤ e := by
  induction n generalizing e with
  | zero => exact h.isRoot he
  | succ n ih =>
    rcases isLiveWithin_succ_iff.1 he with he | ⟨o, heo, ho⟩
    · exact (h.isRoot he).imp_left fun he ↦ isLiveWithin_of_isRoot he _
    · rcases h.members o e heo with heo | he
      · rcases ih ho with ho | ho
        · exact .inl (isLiveWithin_succ_iff.2 (.inr ⟨o, heo, ho⟩))
        · exact absurd (lt_of_mem_members heo) (Nat.not_lt_of_le ho)
      · exact .inl (isLiveWithin_of_isRoot he _)

theorem isLive (h : Fades g g') (he : g'.isLive e = true) :
    g.isLive e = true ∨ g.entities.length ≤ e := h.isLiveWithin he

end Fades

theorem SameLinks.fades (h : SameLinks g g') : Fades g g' where
  handles r hr := by rw [isHeld, h.handles] at hr; exact .inl hr
  members o e he := .inl (h.members o ▸ he)
  types u t ht := .inl (h.types u ▸ ht)
  packages p t ht := .inl (h.packages p ▸ ht)
  lists r t ht := .inl (h.registry r ▸ ht)
  units r u hu := .inl (h.registry r ▸ hu)

end JavaOutline.Graph
