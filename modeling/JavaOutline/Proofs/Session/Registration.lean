import JavaOutline.Proofs.Graph.Naming
import JavaOutline.Session.Run

/-! # Registering units one after the other

However many units are registered, the registry holds what their listings determine: the first type
of each name stays, the later ones are passed over and reported, and the packages file what stays.
-/

namespace JavaOutline

open Registry Listing

/-! ## The listings of a graph -/

namespace Graph

/-- The types of some units in order, with their qualified names. -/
def listings (g : Graph) (us : List UnitId) : List (Listing UnitId EntityId) :=
  us.flatMap fun u ↦ (g.namedTypes u).map fun t ↦ ⟨u, t.1, t.2⟩

/-- The warning about a listing that is passed over. -/
def warning (g : Graph) (l : Listing UnitId EntityId) : String :=
  duplicateWarning l.name (g.unit l.unit).path

variable {g₀ g : Graph} {i : RegistryId} {us : List UnitId} {u : UnitId}

theorem listings_concat (g : Graph) (us : List UnitId) (u : UnitId) :
    g.listings (us ++ [u]) = g.listings us ++ (g.namedTypes u).map fun t ↦ ⟨u, t.1, t.2⟩ := by
  rw [listings, List.flatMap_append, List.flatMap_singleton, listings]

theorem of_mem_listings {l : Listing UnitId EntityId} (hl : l ∈ g.listings us) :
    l.unit ∈ us ∧ l.name = (g.qualifiedName l.type).1 := by
  obtain ⟨u, hu, hl⟩ := List.mem_flatMap.1 hl
  obtain ⟨t, ht, rfl⟩ := List.mem_map.1 hl
  obtain ⟨t, -, rfl⟩ := List.mem_map.1 ht
  exact ⟨hu, rfl⟩

theorem isHeld_of_bound? {s : String} {r : Ref} (h : g.bound? s = some r) : g.isHeld r = true := by
  obtain ⟨_, _, hs, -⟩ := List.lookup_eq_some_iff.1 h
  rw [isHeld, hs]
  simp

/-! ## Registering a unit -/

/-- A graph in which a registry has taken up these units as they were at first. -/
structure HasRegistered (g₀ : Graph) (i : RegistryId) (us : List UnitId) (g : Graph) : Prop where
  settled : Settled g₀ g
  lt : i < g.registries.length
  owns : g.OwnsPackages i
  indexes : Indexes (fun u ↦ (g₀.unit u).packageName) us (g₀.listings us) (g.registry i)

theorem HasRegistered.registered_eq (h : HasRegistered g₀ i us g) (u : UnitId) :
    g.registered i u =
      (g.registry i).register u (g₀.unit u).packageName (g₀.namedTypes u) := by
  rw [registered, h.settled.unitPackageName, h.settled.namedTypes]

theorem HasRegistered.addToRegistry (h : HasRegistered g₀ i us g)
    (hu : g₀.isHeld (.unit u) = true) :
    HasRegistered g₀ i (us ++ [u]) (g.addToRegistry i u).1 where
  settled := h.settled.trans (Settled.addToRegistry g i ((h.settled.isHeld _).trans hu))
  lt := by
    rw [addToRegistry_eq, length_registries_takeUp, named_eq]
    exact h.lt
  owns := by
    rw [addToRegistry_eq]
    refine OwnsPackages.takeUp ?_ ..
    rw [named_eq]
    exact h.owns.of_eq rfl (Nat.le_refl _)
  indexes := by
    rw [(addToRegistry_self h.owns h.lt u).1, h.registered_eq, listings_concat]
    exact h.indexes.register (fun l hl ↦ (of_mem_listings hl).1) u _

/-- The warnings are about the listings that are passed over. -/
theorem HasRegistered.warnings (h : HasRegistered g₀ i us g) (u : UnitId) :
    (repeats (g₀.listings (us ++ [u]))).map g₀.warning =
      (repeats (g₀.listings us)).map g₀.warning ++ (g.addToRegistry i u).2 := by
  have hw : g₀.warning = (fun p ↦ duplicateWarning p.2 (g₀.unit p.1).path) ∘
      fun l : Listing UnitId EntityId ↦ (l.unit, l.name) := rfl
  have hx := h.indexes.repeats_register (fun l hl ↦ (of_mem_listings hl).1) u (g₀.namedTypes u)
  rw [(addToRegistry_self h.owns h.lt u).2, h.settled.path, h.registered_eq, hw, ← List.map_map,
    ← List.map_map, listings_concat, hx, List.map_append, List.map_map (l := Prod.snd _)]
  rfl

end Graph

namespace Session

open JavaOutline.Graph

variable {g₀ g : Graph} {lib s : String} {i : RegistryId} {us : List UnitId} {u : UnitId}

/-! ## Steps -/

/-- Register what some handles hold, one after the other. -/
def registrations (lib : String) (handles : List String) : List Step :=
  handles.map fun s ↦ .call lib (.register s)

theorem step_register (hl : g.bound? lib = some (.registry i)) (hs : g.bound? s = some (.unit u)) :
    step g (.call lib (.register s)) =
      ((g.addToRegistry i u).1,
        { result := .ok (.ofRef (g.addToRegistry i u).1 (.unit u))
          warnings := (g.addToRegistry i u).2 }) := by
  have hf : findUnit g s = .ok u := by rw [findUnit, find, hs]; rfl
  rw [step, withRef, find, hl]
  simp only [call, hf]

/-- An object that a handle holds is named by that handle, whatever becomes of it. -/
theorem ofRef_of_settled (h : Settled g₀ g) (hu : g₀.isHeld (.unit u) = true) :
    Answer.ofRef g (.unit u) = Answer.ofRef g₀ (.unit u) := by
  have hs : (g₀.handleOf? (.unit u)).isSome = true := by
    rw [handleOf?, Option.isSome_map, List.isSome_find?]
    exact hu
  obtain ⟨s, hs⟩ := Option.isSome_iff_exists.1 hs
  have hs' : g.handleOf? (.unit u) = some s := by
    rw [handleOf?, h.handles]
    exact hs
  simp only [Answer.ofRef, hs, hs']

/-! ## Runs -/

/-- A run of registrations: what the registry holds, what each step answers and what the steps warn
about, all in terms of the graph at the start. -/
theorem run_registrations_of_hasRegistered (hl : g₀.bound? lib = some (.registry i))
    (h : HasRegistered g₀ i us g) {cs : List (String × UnitId)}
    (hcs : ∀ c ∈ cs, g₀.bound? c.1 = some (.unit c.2)) :
    ∃ g' replies, run g (registrations lib (cs.map (·.1))) = (g', replies) ∧
      HasRegistered g₀ i (us ++ cs.map (·.2)) g' ∧
      replies.map (·.result) = cs.map (fun c ↦ .ok (.ofRef g₀ (.unit c.2))) ∧
      (repeats (g₀.listings (us ++ cs.map (·.2)))).map g₀.warning =
        (repeats (g₀.listings us)).map g₀.warning ++ replies.flatMap (·.warnings) := by
  induction cs generalizing us g with
  | nil => exact ⟨g, [], rfl, by rwa [List.map_nil, List.append_nil], rfl, by simp⟩
  | cons c cs ih =>
    obtain ⟨hc, hcs⟩ := List.forall_mem_cons.1 hcs
    have hu := isHeld_of_bound? hc
    have h' := h.addToRegistry hu
    obtain ⟨g', replies, hrun, hg', hresults, hwarnings⟩ := ih h' hcs
    have hstep := step_register (s := c.1) ((h.settled.bound? lib).trans hl)
      ((h.settled.bound? c.1).trans hc)
    refine ⟨g', ⟨.ok (.ofRef g₀ (.unit c.2)), (g.addToRegistry i c.2).2⟩ :: replies, ?_, ?_, ?_, ?_⟩
    · rw [registrations, List.map_cons, List.map_cons, run, hstep, ofRef_of_settled h'.settled hu]
      change (_, _ :: _) = _
      rw [← registrations, hrun]
    · rwa [List.map_cons, List.append_cons]
    · rw [List.map_cons, List.map_cons, hresults]
    · rw [List.map_cons, List.append_cons, hwarnings, h.warnings, List.append_assoc,
        List.flatMap_cons]

/-- Registering units into a fresh registry is folding over their listings, where the first one of
each name wins. -/
theorem run_registrations (hl : g.bound? lib = some (.registry i))
    (hi : g.registries[i]? = some {}) {cs : List (String × UnitId)}
    (hcs : ∀ c ∈ cs, g.bound? c.1 = some (.unit c.2)) :
    ∃ g' replies, run g (registrations lib (cs.map (·.1))) = (g', replies) ∧
      -- The names of types are the same before and after, and each step answers with its unit.
      (∀ t, (g'.qualifiedName t).1 = (g.qualifiedName t).1) ∧
      replies.map (·.result) = cs.map (fun c ↦ .ok (.ofRef g (.unit c.2))) ∧
      -- Units and types, and types by name.
      (g'.registry i).units = cs.map (·.2) ∧
      (g'.registry i).types.map (·.2) = (firsts (g.listings (cs.map (·.2)))).map (·.type) ∧
      (∀ n, (g'.registry i).type? n =
        ((g.listings (cs.map (·.2))).find? (·.name == n)).map (·.type)) ∧
      (∀ n, answer? g' (.registry i) (.hasType n) =
        some (.ok (.bool ((g.listings (cs.map (·.2))).any (·.name == n))))) ∧
      -- Packages by first occurrence, each with the types that are kept of its units.
      (g'.registry i).packages.map (·.1) =
        (cs.map fun c ↦ (g.unit c.2).packageName).eraseDups ∧
      (∀ p ∈ (g'.registry i).packages, p.2 =
        ((firsts (g.listings (cs.map (·.2)))).filter
          fun l ↦ (g.unit l.unit).packageName == p.1).map (·.type)) ∧
      (∀ l ∈ firsts (g.listings (cs.map (·.2))), ∃ p ∈ (g'.registry i).packages,
        p.1 = (g.unit l.unit).packageName ∧ l.type ∈ p.2 ∧
          ∀ q ∈ (g'.registry i).packages, l.type ∈ q.2 → q = p) ∧
      (∀ p ∈ (g'.registry i).packages, ∀ t ∈ p.2, t ∈ (g'.registry i).types.map (·.2)) ∧
      -- One warning for each type that is passed over.
      replies.flatMap (·.warnings) = (repeats (g.listings (cs.map (·.2)))).map g.warning ∧
      (replies.flatMap (·.warnings)).length + (g'.registry i).types.length =
        (g.listings (cs.map (·.2))).length := by
  have h₀ : HasRegistered g i [] g := by
    obtain ⟨hlt, -⟩ := List.getElem?_eq_some_iff.1 hi
    have hobject : g.registryObject i = {} := by
      rw [registryObject, List.getD_eq_getElem?_getD, hi]
      rfl
    refine ⟨.refl g, hlt, ownsPackages_of_nil (by rw [hobject]), ?_⟩
    rw [registry, hobject]
    exact Indexes.empty
  obtain ⟨g', replies, hrun, h, hresults, hwarnings⟩ :=
    run_registrations_of_hasRegistered hl h₀ hcs
  rw [List.nil_append] at h hwarnings
  have hx := h.indexes
  have hls (l) (hl : l ∈ g.listings (cs.map (·.2))) := of_mem_listings hl
  have hw : replies.flatMap (·.warnings) = (repeats (g.listings (cs.map (·.2)))).map g.warning :=
    hwarnings.symm
  refine ⟨g', replies, hrun, h.settled.qualifiedName, hresults, hx.units, ?_, hx.type?_eq, ?_, ?_,
    ?_, ?_, fun p hp t ht ↦ hx.mem_types_of_mem_packages hp ht, hw, ?_⟩
  · rw [hx.types, List.map_map]
    rfl
  · intro n
    rw [answer?, hx.isSome_type?]
  · rw [hx.names_packages, List.map_map]
    rfl
  · intro p hp
    rw [hx.packages] at hp
    obtain ⟨p, -, rfl⟩ := List.mem_map.1 hp
    rfl
  · intro l hl
    exact hx.exists_package (fun l hl ↦ (hls l hl).1) (f := fun t ↦ (g.qualifiedName t).1)
      (fun l hl ↦ (hls l hl).2) hl
  · rw [hw, hx.types, List.length_map, List.length_map, Nat.add_comm,
      length_firsts_add_length_repeats]

/-- Two units declare the same name, and the second one is reported. -/
theorem run_registrations_two_units :
    ∃ g : Graph, g = (run {} [
        .new "a" (.unit (some "A.java") (some "p") []),
        .new "b" (.unit (some "B.java") (some "p") []),
        .new "s" (.entity { name := "A" } (.type {} [] [] none "")),
        .new "t" (.entity { name := "A" } (.type {} [] [] none "")),
        .call "a" (.addType "s"), .call "b" (.addType "t"), .new "lib" .registry]).1 ∧
      g.bound? "lib" = some (.registry 0) ∧ g.registries[0]? = some ({} : RegistryObject) ∧
      (∀ c ∈ [("a", 0), ("b", 1)], g.bound? c.1 = some (.unit c.2)) ∧
      (run g (registrations "lib" ["a", "b"])).2.flatMap (·.warnings) =
        ["Duplicate class p.A in B.java; keeping the first definition"] := by
  refine ⟨_, rfl, ?_⟩
  generalize hg : (run {} _).1 = g
  have hl : g.bound? "lib" = some (.registry 0) := by rw [← hg]; decide +kernel
  have hi : g.registries[0]? = some ({} : RegistryObject) := by rw [← hg]; rfl
  have hcs : ∀ c ∈ [("a", 0), ("b", 1)], g.bound? c.1 = some (.unit c.2) := by
    rw [← hg]; decide +kernel
  obtain ⟨g', replies, hrun, -, -, -, -, -, -, -, -, -, -, hw, -⟩ := run_registrations hl hi hcs
  refine ⟨hl, hi, hcs, ?_⟩
  have hrun : run g (registrations "lib" ["a", "b"]) = (g', replies) := hrun
  rw [hrun, hw, ← hg]
  decide +kernel

end Session

end JavaOutline
