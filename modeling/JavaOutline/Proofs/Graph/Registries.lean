import JavaOutline.Graph.Change
import JavaOutline.Proofs.Registry
import Mathlib.Data.List.GetD

/-! # Packages of registries

A registry keeps its packages as objects, each under the name that it was opened with, so that what
they list can be changed behind its back.  As long as no package stands under two names or in two
registries (`Graph.Apart`), taking up a unit does to what the packages list what
`Registry.register` says, and nothing to any other registry (`Graph.registry_takeUp`). -/

namespace JavaOutline.Graph

variable {g g' g'' : Graph} {i j : RegistryId} {p q : PackageId} {u : UnitId} {t : EntityId}
  {n : String} {ts : List (String × EntityId)}

/-! ## Tables -/

theorem getD_modify_eq {α : Type} (l : List α) (i : Nat) (f : α → α) (j : Nat) (d : α) :
    (l.modify i f).getD j d = if j = i ∧ j < l.length then f (l.getD j d) else l.getD j d := by
  rw [List.getD_eq_getElem?_getD, List.getD_eq_getElem?_getD, List.getElem?_modify]
  by_cases hj : j < l.length
  · by_cases hi : i = j
    · simp [hi, hj]
    · simp [hi, hj, Ne.symm hi]
  · simp [hj]

theorem getD_modify {α : Type} (l : List α) (i : Nat) (f : α → α) (j : Nat) (d : α) :
    (l.modify i f).getD j d = l.getD j d ∨ j = i ∧ (l.modify i f).getD j d = f (l.getD j d) := by
  rw [getD_modify_eq]
  split
  next h => exact .inr ⟨h.1, rfl⟩
  next => exact .inl rfl

theorem getD_concat {α : Type} (l : List α) (a : α) (j : Nat) (d : α) :
    (l ++ [a]).getD j d = l.getD j d ∨ j = l.length ∧ (l ++ [a]).getD j d = a := by
  obtain hj | rfl | hj := Nat.lt_trichotomy j l.length
  · exact .inl (List.getD_append _ _ _ _ hj)
  · exact .inr ⟨rfl, by simp⟩
  · refine .inl ?_
    rw [List.getD_eq_default _ _ (by rw [List.length_append]; exact hj),
      List.getD_eq_default _ _ (Nat.le_of_lt hj)]

theorem registryObject_modifyRegistry (g : Graph) (i : RegistryId)
    (f : RegistryObject → RegistryObject) (j : RegistryId) :
    (g.modifyRegistry i f).registryObject j =
      if j = i ∧ j < g.registries.length then f (g.registryObject j) else g.registryObject j :=
  getD_modify_eq g.registries i f j default

theorem package_modifyPackage (g : Graph) (p : PackageId) (f : PackageObject → PackageObject)
    (q : PackageId) :
    (g.modifyPackage p f).package q =
      if q = p ∧ q < g.packages.length then f (g.package q) else g.package q :=
  getD_modify_eq g.packages p f q default

theorem lt_of_mem_packages {c : String × PackageId} (hc : c ∈ (g.registryObject i).packages) :
    i < g.registries.length := by
  by_contra hi
  rw [registryObject, List.getD_eq_default _ _ (Nat.le_of_not_lt hi)] at hc
  cases hc

/-- A new registry is empty, like one that is not there. -/
theorem registryObject_addRegistry (g : Graph) (i : RegistryId) :
    Graph.registryObject { g with registries := g.registries ++ [{}] } i = g.registryObject i := by
  obtain h | ⟨rfl, h⟩ : Graph.registryObject { g with registries := g.registries ++ [{}] } i =
      g.registryObject i ∨ i = g.registries.length ∧
        Graph.registryObject { g with registries := g.registries ++ [{}] } i = {} :=
    getD_concat g.registries {} i default
  · exact h
  · rw [h, registryObject, List.getD_eq_default _ _ (Nat.le_refl _)]
    rfl

/-! ## What a registry shows of its packages -/

/-- A registry shows the same if it is the same and its packages list the same. -/
theorem registry_congr (hr : g'.registryObject i = g.registryObject i)
    (hp : ∀ c ∈ (g.registryObject i).packages, (g'.package c.2).types = (g.package c.2).types) :
    g'.registry i = g.registry i := by
  rw [registry, registry, hr, List.map_congr_left fun c hc ↦ by rw [hp c hc]]

theorem package?_registry (g : Graph) (i : RegistryId) (n : String) :
    (g.registry i).package? n =
      ((g.registryObject i).packages.lookup n).map fun p ↦ (g.package p).types := by
  rw [Registry.package?, registry]
  induction (g.registryObject i).packages with
  | nil => rfl
  | cons c cs ih =>
    rw [List.map_cons, List.lookup_cons, List.lookup_cons, ih]
    cases n == c.1 <;> rfl

theorem mem_of_lookup (h : (g.registryObject i).packages.lookup n = some p) :
    (n, p) ∈ (g.registryObject i).packages := by
  obtain ⟨l₁, l₂, hl, -⟩ := List.lookup_eq_some_iff.1 h
  rw [hl]
  simp

/-! ## The invariant -/

/-- The packages of a registry exist, and none stands under two names. -/
structure OwnsPackages (g : Graph) (i : RegistryId) : Prop where
  lt : ∀ c ∈ (g.registryObject i).packages, c.2 < g.packages.length
  names : ((g.registryObject i).packages.map (·.1)).Nodup
  objects : ((g.registryObject i).packages.map (·.2)).Nodup

/-- Every package belongs to one registry at most, and there to one name. -/
structure Apart (g : Graph) : Prop where
  owns : ∀ i, g.OwnsPackages i
  apart : ∀ i j, i ≠ j → ∀ c ∈ (g.registryObject i).packages,
    ∀ d ∈ (g.registryObject j).packages, c.2 ≠ d.2

theorem OwnsPackages.of_eq (h : g.OwnsPackages i)
    (hr : (g'.registryObject i).packages = (g.registryObject i).packages)
    (hp : g.packages.length ≤ g'.packages.length) : g'.OwnsPackages i where
  lt c hc := Nat.lt_of_lt_of_le (h.lt c (hr ▸ hc)) hp
  names := hr ▸ h.names
  objects := hr ▸ h.objects

theorem Apart.of_eq (h : g.Apart)
    (hr : ∀ i, (g'.registryObject i).packages = (g.registryObject i).packages)
    (hp : g.packages.length ≤ g'.packages.length) : g'.Apart where
  owns i := (h.owns i).of_eq (hr i) hp
  apart i j hij c hc d hd := h.apart i j hij c (hr i ▸ hc) d (hr j ▸ hd)

/-- A change that leaves packages and registries alone. -/
theorem Apart.congr (h : g.Apart) (hr : g'.registries = g.registries)
    (hp : g'.packages = g.packages) : g'.Apart := by
  refine h.of_eq (fun i ↦ ?_) (hp ▸ Nat.le_refl _)
  rw [registryObject, registryObject, hr]

theorem ownsPackages_of_nil (h : (g.registryObject i).packages = []) : g.OwnsPackages i where
  lt _ hc := absurd (h ▸ hc) List.not_mem_nil
  names := h ▸ List.nodup_nil
  objects := h ▸ List.nodup_nil

theorem apart_empty : Apart {} where
  owns _ := ownsPackages_of_nil rfl
  apart _ _ _ _ hc := absurd hc List.not_mem_nil

/-- The name tells the package, and the package the name. -/
theorem OwnsPackages.name_eq_iff (h : g.OwnsPackages i)
    (hp : (n, p) ∈ (g.registryObject i).packages) {c : String × PackageId}
    (hc : c ∈ (g.registryObject i).packages) : c.1 = n ↔ c.2 = p := by
  constructor
  · intro hn
    rw [List.inj_on_of_nodup_map h.names hc hp hn]
  · intro hq
    rw [List.inj_on_of_nodup_map h.objects hc hp hq]

/-! ## Opening packages -/

/-- The registries that are not concerned do not have the package that is opened. -/
theorem Apart.ne_openPackage (h : g.Apart) (hj : ¬ (j = i ∧ j < g.registries.length))
    {c : String × PackageId} (hc : c ∈ (g.registryObject j).packages) :
    c.2 ≠ (g.openPackage i n).1 := by
  have hji : j ≠ i := fun hji ↦ hj ⟨hji, lt_of_mem_packages hc⟩
  rw [openPackage]
  split
  next p hp => exact h.apart j i hji c hc (n, p) (mem_of_lookup hp)
  next => exact Nat.ne_of_lt ((h.owns j).lt c hc)

section

variable (g) (i) (n)

/-- A package that is not there yet is opened behind the others. -/
theorem registryObject_openPackage (j : RegistryId) :
    (g.openPackage i n).2.registryObject j =
      if j = i ∧ j < g.registries.length ∧ (g.registryObject i).packages.lookup n = none then
        { g.registryObject j with
          packages := (g.registryObject j).packages ++ [(n, g.packages.length)] }
      else g.registryObject j := by
  rw [openPackage]
  split
  next p hp => rw [if_neg fun h ↦ by rw [hp] at h; cases h.2.2]
  next hn =>
    simp only [hn, and_true]
    exact registryObject_modifyRegistry _ i _ j

theorem types_package_openPackage (q : PackageId) :
    ((g.openPackage i n).2.package q).types = (g.package q).types := by
  rw [openPackage]
  split
  next => rfl
  next =>
    change ((g.packages ++ [_]).getD q default).types = _
    obtain h | ⟨rfl, h⟩ := getD_concat g.packages { name := n } q default
    · rw [h]
      rfl
    · rw [h, package, List.getD_eq_default _ _ (Nat.le_refl _)]
      rfl

theorem length_packages_openPackage :
    g.packages.length ≤ (g.openPackage i n).2.packages.length := by
  rw [openPackage]
  split
  · exact Nat.le_refl _
  · exact (List.prefix_append _ _).length_le

theorem length_registries_openPackage :
    (g.openPackage i n).2.registries.length = g.registries.length := by
  rw [openPackage]
  split
  · rfl
  · exact List.length_modify ..

/-- Opening a package concerns packages and registries only. -/
theorem openPackage_eq : (g.openPackage i n).2 =
    { g with
      packages := (g.openPackage i n).2.packages
      registries := (g.openPackage i n).2.registries } := by
  rw [openPackage]
  split <;> rfl

end

theorem openPackage_of_some (hn : (g.registryObject i).packages.lookup n = some p) :
    g.openPackage i n = (p, g) := by
  rw [openPackage, hn]

theorem mem_openPackage (hi : i < g.registries.length) (n : String) :
    (n, (g.openPackage i n).1) ∈ ((g.openPackage i n).2.registryObject i).packages := by
  cases hn : (g.registryObject i).packages.lookup n with
  | some p =>
    rw [openPackage_of_some hn]
    exact mem_of_lookup hn
  | none =>
    have hopen : (g.openPackage i n).1 = g.packages.length := by rw [openPackage, hn]
    rw [registryObject_openPackage, if_pos ⟨rfl, hi, hn⟩, hopen]
    exact List.mem_append_right _ List.mem_cons_self

theorem registry_openPackage (hi : i < g.registries.length) (n : String) :
    (g.openPackage i n).2.registry i = (g.registry i).openPackage n := by
  have htypes := types_package_openPackage g i n
  rw [Registry.openPackage, package?_registry, Option.isSome_map, registry,
    registryObject_openPackage]
  simp only [htypes]
  cases hn : (g.registryObject i).packages.lookup n with
  | some p =>
    rw [if_neg fun h ↦ by cases h.2.2]
    rfl
  | none =>
    have hnew : (g.package g.packages.length).types = [] := by
      rw [package, List.getD_eq_default _ _ (Nat.le_refl _)]
      rfl
    simp only [hi, and_self, if_true, List.map_append, List.map_singleton, hnew]
    rfl

theorem OwnsPackages.openPackage (h : g.OwnsPackages j) (i : RegistryId) (n : String) :
    (g.openPackage i n).2.OwnsPackages j := by
  have hle := length_packages_openPackage g i n
  by_cases hj : j = i ∧ j < g.registries.length ∧ (g.registryObject i).packages.lookup n = none
  · obtain ⟨rfl, hlt, hn⟩ := hj
    have hlen : (g.openPackage j n).2.packages.length = g.packages.length + 1 := by
      rw [Graph.openPackage, hn]
      exact List.length_append
    have hpackages : ((g.openPackage j n).2.registryObject j).packages =
        (g.registryObject j).packages ++ [(n, g.packages.length)] := by
      rw [registryObject_openPackage, if_pos ⟨rfl, hlt, hn⟩]
    refine ⟨fun c hc ↦ ?_, ?_, ?_⟩
    · rw [hpackages] at hc
      rw [hlen]
      rcases List.mem_append.1 hc with hc | hc
      · exact Nat.lt_succ_of_lt (h.lt c hc)
      · rw [List.mem_singleton.1 hc]
        exact Nat.lt_succ_self _
    · rw [hpackages, List.map_append, List.map_singleton, ← List.concat_eq_append,
        List.nodup_concat]
      refine ⟨fun hmem ↦ ?_, h.names⟩
      obtain ⟨c, hc, rfl⟩ := List.mem_map.1 hmem
      exact absurd (List.lookup_eq_none_iff.1 hn c hc) (by simp)
    · rw [hpackages, List.map_append, List.map_singleton, ← List.concat_eq_append,
        List.nodup_concat]
      refine ⟨fun hmem ↦ ?_, h.objects⟩
      obtain ⟨c, hc, hclen⟩ := List.mem_map.1 hmem
      exact Nat.ne_of_lt (h.lt c hc) hclen
  · refine h.of_eq ?_ hle
    rw [registryObject_openPackage, if_neg hj]

/-- A new package is in no registry but the one that it is opened in. -/
theorem Apart.openPackage (h : g.Apart) (i : RegistryId) (n : String) :
    (g.openPackage i n).2.Apart where
  owns j := (h.owns j).openPackage i n
  apart j k hjk c hc d hd := by
    have hold {l : RegistryId} {c : String × PackageId}
        (hc : c ∈ ((g.openPackage i n).2.registryObject l).packages) :
        c ∈ (g.registryObject l).packages ∨ l = i ∧ c.2 = g.packages.length := by
      rw [registryObject_openPackage] at hc
      split at hc
      next hl =>
        rcases List.mem_append.1 hc with hc | hc
        · exact .inl hc
        · rw [List.mem_singleton.1 hc]
          exact .inr ⟨hl.1, rfl⟩
      next => exact .inl hc
    rcases hold hc with hc | ⟨hj, hclen⟩
    · rcases hold hd with hd | ⟨-, hdlen⟩
      · exact h.apart j k hjk c hc d hd
      · rw [hdlen]
        exact Nat.ne_of_lt ((h.owns j).lt c hc)
    · rcases hold hd with hd | ⟨hk, -⟩
      · rw [hclen]
        exact (Nat.ne_of_lt ((h.owns k).lt d hd)).symm
      · exact absurd (hj.trans hk.symm) hjk

/-! ## Filing types -/

/-- The second graph differs at most in the types that a registry and a package list. -/
structure Files (g : Graph) (i : RegistryId) (p : PackageId) (g' : Graph) : Prop where
  rest : g' = { g with packages := g'.packages, registries := g'.registries }
  length : g'.packages.length = g.packages.length
  registries : g'.registries.length = g.registries.length
  units : ∀ j, (g'.registryObject j).units = (g.registryObject j).units
  packages : ∀ j, (g'.registryObject j).packages = (g.registryObject j).packages
  registry : ∀ j, ¬ (j = i ∧ j < g.registries.length) → g'.registryObject j = g.registryObject j
  package : ∀ q, q ≠ p → g'.package q = g.package q

namespace Files

theorem refl (g : Graph) (i : RegistryId) (p : PackageId) : Files g i p g :=
  ⟨rfl, rfl, rfl, fun _ ↦ rfl, fun _ ↦ rfl, fun _ _ ↦ rfl, fun _ _ ↦ rfl⟩

theorem trans (h : Files g i p g') (h' : Files g' i p g'') : Files g i p g'' where
  rest := by
    have hrest := h'.rest
    rw [h.rest] at hrest
    exact hrest
  length := h'.length.trans h.length
  registries := h'.registries.trans h.registries
  units j := (h'.units j).trans (h.units j)
  packages j := (h'.packages j).trans (h.packages j)
  registry j hj := (h'.registry j (h.registries ▸ hj)).trans (h.registry j hj)
  package q hq := (h'.package q hq).trans (h.package q hq)

theorem fileType (g : Graph) (i : RegistryId) (p : PackageId) (n : String) (t : EntityId) :
    Files g i p (g.fileType i p n t) := by
  have hr (j : RegistryId) : (g.fileType i p n t).registryObject j =
      if j = i ∧ j < g.registries.length then
        { g.registryObject j with types := (g.registryObject j).types ++ [(n, t)] }
      else g.registryObject j := registryObject_modifyRegistry g i _ j
  refine ⟨rfl, List.length_modify .., List.length_modify .., fun j ↦ ?_, fun j ↦ ?_,
    fun j hj ↦ ?_, fun q hq ↦ ?_⟩
  · rw [hr]
    split <;> rfl
  · rw [hr]
    split <;> rfl
  · rw [hr, if_neg hj]
  · exact (package_modifyPackage _ p _ q).trans (if_neg fun h ↦ hq h.1)

theorem fileTypes (g : Graph) (i : RegistryId) (p : PackageId) (ts : List (String × EntityId)) :
    Files g i p (Graph.fileTypes i p ts g).1 := by
  induction ts generalizing g with
  | nil => exact refl g i p
  | cons c ts ih =>
    rw [Graph.fileTypes]
    split
    · exact ih g
    · exact (fileType g i p c.1 c.2).trans (ih _)

/-- A registry that is not concerned shows what it showed before. -/
theorem registry_eq (h : Files g i p g') (hj : ¬ (j = i ∧ j < g.registries.length))
    (hp : ∀ c ∈ (g.registryObject j).packages, c.2 ≠ p) : g'.registry j = g.registry j :=
  registry_congr (h.registry j hj) fun c hc ↦ by rw [h.package c.2 (hp c hc)]

end Files

/-- Filing one type: the package that has it in addition is the one under the name. -/
theorem registry_fileType (h : g.OwnsPackages i) (hi : i < g.registries.length)
    (hp : (n, p) ∈ (g.registryObject i).packages) (m : String) (t : EntityId) :
    (g.fileType i p m t).registry i =
      { g.registry i with
        types := (g.registry i).types ++ [(m, t)]
        packages := Registry.appendUnder n t (g.registry i).packages } := by
  have hr : (g.fileType i p m t).registryObject i =
      { g.registryObject i with types := (g.registryObject i).types ++ [(m, t)] } :=
    (registryObject_modifyRegistry g i _ i).trans (if_pos ⟨rfl, hi⟩)
  have htypes (c) (hc : c ∈ (g.registryObject i).packages) :
      ((g.fileType i p m t).package c.2).types =
        if c.1 = n then (g.package c.2).types ++ [t] else (g.package c.2).types := by
    have hpackage : (g.fileType i p m t).package c.2 =
        if c.2 = p ∧ c.2 < g.packages.length then
          { g.package c.2 with types := (g.package c.2).types ++ [t] }
        else g.package c.2 := package_modifyPackage _ p _ c.2
    simp only [hpackage, h.name_eq_iff hp hc, h.lt c hc, and_true]
    split <;> rfl
  rw [registry, hr, registry, Registry.appendUnder]
  simp only [List.map_map]
  congr 1
  refine List.map_congr_left fun c hc ↦ ?_
  rw [Function.comp_apply, htypes c hc]
  split <;> rfl

/-- Filing types in a package does what is said of lists of types. -/
theorem registry_fileTypes (h : g.OwnsPackages i) (hi : i < g.registries.length)
    (hp : (n, p) ∈ (g.registryObject i).packages) (ts : List (String × EntityId)) :
    (fileTypes i p ts g).1.registry i = ((g.registry i).addTypes n ts).1 ∧
      (fileTypes i p ts g).2 = ((g.registry i).addTypes n ts).2 := by
  induction ts generalizing g with
  | nil => exact ⟨rfl, rfl⟩
  | cons c ts ih =>
    have hf := Files.fileType g i p c.1 c.2
    have hfiled := ih (h.of_eq (hf.packages i) (Nat.le_of_eq hf.length.symm))
      (hf.registries.symm ▸ hi) (hf.packages i ▸ hp)
    rw [registry_fileType h hi hp] at hfiled
    rw [fileTypes, Registry.addTypes, Registry.type?]
    change ((if _ then _ else _ : Graph × List String).1.registry i =
      (if ((g.registryObject i).types.lookup c.1).isSome then _ else _ : _ × List String).1) ∧
      (if _ then _ else _ : Graph × List String).2 =
      (if ((g.registryObject i).types.lookup c.1).isSome then _ else _ : _ × List String).2
    split
    · obtain ⟨hg, hn⟩ := ih h hi hp
      exact ⟨hg, congrArg (c.1 :: ·) hn⟩
    · exact hfiled

theorem mem_types_fileTypes (ht : t ∈ ((fileTypes i p ts g).1.package q).types) :
    t ∈ (g.package q).types ∨ ∃ c ∈ ts, c.2 = t := by
  induction ts generalizing g with
  | nil => exact .inl ht
  | cons c ts ih =>
    have hlater : (∃ d ∈ ts, d.2 = t) → ∃ d ∈ c :: ts, d.2 = t := fun ⟨d, hd, hdt⟩ ↦
      ⟨d, List.mem_cons_of_mem c hd, hdt⟩
    rw [fileTypes] at ht
    split at ht
    · exact (ih ht).imp_right hlater
    · rcases ih ht with ht | ht
      · have hq : (g.fileType i p c.1 c.2).package q = _ := package_modifyPackage _ p _ q
        rw [hq] at ht
        split at ht
        · rcases List.mem_append.1 ht with ht | ht
          · exact .inl ht
          · exact .inr ⟨c, List.mem_cons_self, (List.mem_singleton.1 ht).symm⟩
        · exact .inl ht
      · exact .inr (hlater ht)

/-! ## Taking up a unit -/

/-- The graph in which a unit has been appended to those of a registry. -/
def appended (g : Graph) (i : RegistryId) (u : UnitId) : Graph :=
  g.modifyRegistry i fun o ↦ { o with units := o.units ++ [u] }

theorem registryObject_appended (g : Graph) (i : RegistryId) (u : UnitId) (j : RegistryId) :
    (g.appended i u).registryObject j =
      if j = i ∧ j < g.registries.length then
        { g.registryObject j with units := (g.registryObject j).units ++ [u] }
      else g.registryObject j := registryObject_modifyRegistry g i _ j

theorem packages_appended (g : Graph) (i : RegistryId) (u : UnitId) (j : RegistryId) :
    ((g.appended i u).registryObject j).packages = (g.registryObject j).packages := by
  rw [registryObject_appended]
  split <;> rfl

theorem registry_appended (hi : i < g.registries.length) (u : UnitId) :
    (g.appended i u).registry i =
      { g.registry i with units := (g.registry i).units ++ [u] } := by
  rw [registry, registryObject_appended, if_pos ⟨rfl, hi⟩]
  rfl

theorem length_registries_appended (g : Graph) (i : RegistryId) (u : UnitId) :
    (g.appended i u).registries.length = g.registries.length := List.length_modify ..

section

variable (g) (i) (u) (n) (ts)

/-- A unit is appended, its package opened, and its types are filed there. -/
theorem takeUp_eq : g.takeUp i u n ts =
    fileTypes i ((g.appended i u).openPackage i n).1 ts ((g.appended i u).openPackage i n).2 := rfl

theorem files_takeUp : Files ((g.appended i u).openPackage i n).2 i
    ((g.appended i u).openPackage i n).1 (g.takeUp i u n ts).1 := Files.fileTypes ..

/-- Taking up a unit concerns packages and registries only. -/
theorem takeUp_fst_eq : (g.takeUp i u n ts).1 =
    { g with
      packages := (g.takeUp i u n ts).1.packages
      registries := (g.takeUp i u n ts).1.registries } := by
  have hrest := (files_takeUp g i u n ts).rest
  rw [openPackage_eq] at hrest
  exact hrest

theorem length_registries_takeUp :
    (g.takeUp i u n ts).1.registries.length = g.registries.length := by
  rw [(files_takeUp g i u n ts).registries, length_registries_openPackage,
    length_registries_appended]

/-- Only the registry that is concerned gets a unit. -/
theorem units_takeUp (j : RegistryId) : ((g.takeUp i u n ts).1.registry j).units =
    if j = i ∧ j < g.registries.length then (g.registry j).units ++ [u]
    else (g.registry j).units := by
  refine ((files_takeUp g i u n ts).units j).trans ?_
  have hopen : (((g.appended i u).openPackage i n).2.registryObject j).units =
      ((g.appended i u).registryObject j).units := by
    rw [registryObject_openPackage]
    split <;> rfl
  rw [hopen, registryObject_appended]
  split <;> rfl

/-- A package lists at most the types that come with the unit in addition. -/
theorem mem_types_takeUp (ht : t ∈ ((g.takeUp i u n ts).1.package q).types) :
    t ∈ (g.package q).types ∨ ∃ c ∈ ts, c.2 = t := by
  rw [takeUp_eq] at ht
  refine (mem_types_fileTypes ht).imp_left fun ht ↦ ?_
  rwa [types_package_openPackage] at ht

end

theorem OwnsPackages.takeUp (h : g.OwnsPackages j) (i : RegistryId) (u : UnitId) (n : String)
    (ts : List (String × EntityId)) : (g.takeUp i u n ts).1.OwnsPackages j := by
  have hfiles := files_takeUp g i u n ts
  have happended : (g.appended i u).OwnsPackages j :=
    h.of_eq (packages_appended g i u j) (Nat.le_refl _)
  exact (happended.openPackage i n).of_eq (hfiles.packages j) (Nat.le_of_eq hfiles.length.symm)

theorem Apart.takeUp (h : g.Apart) (i : RegistryId) (u : UnitId) (n : String)
    (ts : List (String × EntityId)) : (g.takeUp i u n ts).1.Apart := by
  have hfiles := files_takeUp g i u n ts
  have happended : (g.appended i u).Apart := h.of_eq (packages_appended g i u) (Nat.le_refl _)
  exact (happended.openPackage i n).of_eq hfiles.packages (Nat.le_of_eq hfiles.length.symm)

/-- The registry that takes up a unit shows what is said of lists of types. -/
theorem registry_takeUp_self (h : g.OwnsPackages i) (hi : i < g.registries.length) (u : UnitId)
    (n : String) (ts : List (String × EntityId)) :
    (g.takeUp i u n ts).1.registry i = ((g.registry i).register u n ts).1 ∧
      (g.takeUp i u n ts).2 = ((g.registry i).register u n ts).2 := by
  have happended : (g.appended i u).OwnsPackages i :=
    h.of_eq (packages_appended g i u i) (Nat.le_refl _)
  have hi' : i < (g.appended i u).registries.length := (length_registries_appended g i u).symm ▸ hi
  have hfiled := registry_fileTypes (happended.openPackage i n)
    ((length_registries_openPackage _ i n).symm ▸ hi') (mem_openPackage hi' n) ts
  rw [registry_openPackage hi', registry_appended hi] at hfiled
  exact hfiled

/-- Any other registry shows what it showed before. -/
theorem registry_takeUp_of_ne (h : g.Apart) (hj : ¬ (j = i ∧ j < g.registries.length))
    (u : UnitId) (n : String) (ts : List (String × EntityId)) :
    (g.takeUp i u n ts).1.registry j = g.registry j := by
  have happended : (g.appended i u).Apart := h.of_eq (packages_appended g i u) (Nat.le_refl _)
  have hobject : ((g.appended i u).openPackage i n).2.registryObject j = g.registryObject j := by
    rw [registryObject_openPackage, if_neg fun hji ↦ hj ⟨hji.1, ?_⟩, registryObject_appended,
      if_neg hj]
    rw [← length_registries_appended g i u]
    exact hji.2.1
  have hopen : ((g.appended i u).openPackage i n).2.registry j = g.registry j :=
    registry_congr hobject fun c _ ↦ types_package_openPackage (g.appended i u) i n c.2
  rw [(files_takeUp g i u n ts).registry_eq ?_ fun c hc ↦ ?_, hopen]
  · rw [length_registries_openPackage, length_registries_appended]
    exact hj
  · rw [hobject] at hc
    refine happended.ne_openPackage ?_ ((packages_appended g i u j).symm ▸ hc)
    rw [length_registries_appended]
    exact hj

/-- What registries show once a unit has been taken up by one of them. -/
theorem registry_takeUp (h : g.Apart) (i : RegistryId) (u : UnitId) (n : String)
    (ts : List (String × EntityId)) (j : RegistryId) :
    (g.takeUp i u n ts).1.registry j =
      if j = i ∧ j < g.registries.length then ((g.registry i).register u n ts).1
      else g.registry j := by
  split
  next hj =>
    obtain ⟨rfl, hlt⟩ := hj
    exact (registry_takeUp_self (h.owns j) hlt u n ts).1
  next hj => exact registry_takeUp_of_ne h hj u n ts

end JavaOutline.Graph
