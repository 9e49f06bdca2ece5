import JavaOutline.Proofs.Graph.Registries

/-! # Names while units are registered

A type takes its qualified name from the unit it refers to, as long as that is live, and from a note
otherwise.  Registering freezes, notes names and lets a registry own one more unit, and none of that
changes a name: `Settled` says what stays, and each of the three keeps it. -/

namespace JavaOutline

/-- The name of the package of an entity of this form, where units are live and named so. -/
def Form.packageName (live : UnitId → Bool) (name : UnitId → String) : Form → String
  | .type _ _ _ u noted => ((u.filter live).map name).getD noted
  | _ => ""

namespace Graph

variable {g g' g'' : Graph} {i : RegistryId}

theorem packageName_fst (g : Graph) (e : EntityId) :
    (g.packageName e).1 =
      (g.entity e).form.packageName g.unitIsLive fun u ↦ (g.unit u).packageName := by
  rw [packageName, parentUnit?]
  cases (g.entity e).form with
  | type _ _ _ u _ =>
    simp only [Form.packageName]
    cases u.filter g.unitIsLive <;> rfl
  | _ => rfl

/-! ## What stays -/

/-- What is looked up of units and names is the same in both graphs. -/
structure Settled (g g' : Graph) : Prop where
  handles : g'.handles = g.handles
  path : ∀ u, (g'.unit u).path = (g.unit u).path
  package : ∀ u, (g'.unit u).package = (g.unit u).package
  types : ∀ u, (g'.unit u).types = (g.unit u).types
  name : ∀ e, (g'.entity e).header.name = (g.entity e).header.name
  live : ∀ u, g'.unitIsLive u = g.unitIsLive u
  packageName : ∀ e, (g'.packageName e).1 = (g.packageName e).1

namespace Settled

theorem refl (g : Graph) : Settled g g :=
  ⟨rfl, fun _ ↦ rfl, fun _ ↦ rfl, fun _ ↦ rfl, fun _ ↦ rfl, fun _ ↦ rfl, fun _ ↦ rfl⟩

theorem trans (h : Settled g g') (h' : Settled g' g'') : Settled g g'' where
  handles := h'.handles.trans h.handles
  path u := (h'.path u).trans (h.path u)
  package u := (h'.package u).trans (h.package u)
  types u := (h'.types u).trans (h.types u)
  name e := (h'.name e).trans (h.name e)
  live u := (h'.live u).trans (h.live u)
  packageName e := (h'.packageName e).trans (h.packageName e)

theorem bound? (h : Settled g g') (s : String) : g'.bound? s = g.bound? s := by
  rw [Graph.bound?, Graph.bound?, h.handles]

theorem isHeld (h : Settled g g') (r : Ref) : g'.isHeld r = g.isHeld r := by
  rw [Graph.isHeld, Graph.isHeld, h.handles]

theorem unitPackageName (h : Settled g g') (u : UnitId) :
    (g'.unit u).packageName = (g.unit u).packageName := by
  rw [UnitObject.packageName, UnitObject.packageName, h.package u]

end Settled

/-! ## Changes of one object -/

/-- A change of an entity that keeps its name and the name of its package. -/
theorem Settled.modifyEntity (g : Graph) (e : EntityId) {f : Entity → Entity}
    (hf : (f (g.entity e)).header.name = (g.entity e).header.name)
    (hp : (f (g.entity e)).form.packageName g.unitIsLive (fun u ↦ (g.unit u).packageName) =
      (g.entity e).form.packageName g.unitIsLive fun u ↦ (g.unit u).packageName) :
    Settled g (g.modifyEntity e f) where
  handles := rfl
  path _ := rfl
  package _ := rfl
  types _ := rfl
  name e' := by
    obtain h | ⟨rfl, h⟩ := getD_modify g.entities e f e' default
    · exact congrArg (·.header.name) h
    · exact (congrArg (·.header.name) h).trans hf
  live _ := rfl
  packageName e' := by
    rw [packageName_fst, packageName_fst]
    let name (o : Entity) := o.form.packageName g.unitIsLive fun u ↦ (g.unit u).packageName
    obtain h | ⟨rfl, h⟩ := getD_modify g.entities e f e' default
    · exact congrArg name h
    · exact (congrArg name h).trans hp

/-- A change of a unit that keeps all but whether it is frozen. -/
theorem Settled.modifyUnit (g : Graph) (u : UnitId) {f : UnitObject → UnitObject}
    (hp : (f (g.unit u)).path = (g.unit u).path) (hk : (f (g.unit u)).package = (g.unit u).package)
    (ht : (f (g.unit u)).types = (g.unit u).types) : Settled g (g.modifyUnit u f) := by
  have keeps {α : Type} (p : UnitObject → α) (hp : p (f (g.unit u)) = p (g.unit u)) (v : UnitId) :
      p ((g.modifyUnit u f).unit v) = p (g.unit v) := by
    obtain h | ⟨rfl, h⟩ := getD_modify g.units u f v default
    · exact congrArg p h
    · exact (congrArg p h).trans hp
  refine ⟨rfl, keeps _ hp, keeps _ hk, keeps _ ht, fun _ ↦ rfl, fun _ ↦ rfl, fun e ↦ ?_⟩
  rw [packageName_fst, packageName_fst]
  have hn : (fun v ↦ ((g.modifyUnit u f).unit v).packageName) = fun v ↦ (g.unit v).packageName :=
    funext fun v ↦ congrArg (·.getD "") (keeps (·.package) hk v)
  rw [hn]
  rfl

/-! ## What registering does -/

theorem Settled.freeze (g : Graph) (e : EntityId) : Settled g (g.freeze e) := by
  rw [Graph.freeze]
  induction g.descendants e generalizing g with
  | nil => exact .refl g
  | cons e es ih => exact (Settled.modifyEntity g e rfl rfl).trans (ih _)

/-- Freezing a unit freezes its types one by one, and then the unit. -/
theorem Settled.freezeUnit (g : Graph) (u : UnitId) : Settled g (g.freezeUnit u) := by
  have ht (ts : List EntityId) (g : Graph) : Settled g (ts.foldl Graph.freeze g) := by
    induction ts generalizing g with
    | nil => exact .refl g
    | cons t ts ih => exact (Settled.freeze g t).trans (ih _)
  exact (ht _ g).trans (Settled.modifyUnit _ u rfl rfl rfl)

/-- Noting the name of a package does not change it: the note is read only once the unit is gone. -/
theorem Settled.packageName_snd (g : Graph) (e : EntityId) : Settled g (g.packageName e).2 := by
  rw [Graph.packageName]
  split
  next head fs ms u noted hf =>
    split
    next v hv =>
      rw [parentUnit?, hf] at hv
      replace hv : u.filter g.unitIsLive = some v := hv
      refine Settled.modifyEntity g e rfl ?_
      rw [hf]
      change ((u.filter g.unitIsLive).map _).getD _ = ((u.filter g.unitIsLive).map _).getD noted
      rw [hv]
      rfl
    next => exact .refl g
  next => exact .refl g

theorem qualifiedName_fst (g : Graph) (e : EntityId) :
    (g.qualifiedName e).1 = qualify (g.packageName e).1 (g.entity e).header.name :=
  congrArg (qualify _) ((Settled.packageName_snd g e).name e)

theorem Settled.qualifiedName_snd (g : Graph) (e : EntityId) :
    Settled g (g.qualifiedName e).2 := Settled.packageName_snd g e

/-- A type keeps its qualified name. -/
theorem Settled.qualifiedName (h : Settled g g') (e : EntityId) :
    (g'.qualifiedName e).1 = (g.qualifiedName e).1 := by
  rw [qualifiedName_fst, qualifiedName_fst, h.packageName e, h.name e]

theorem Settled.qualifiedNames_snd (ts : List EntityId) (g : Graph) :
    Settled g (qualifiedNames ts g).2 := by
  induction ts generalizing g with
  | nil => exact .refl g
  | cons t ts ih => exact (Settled.qualifiedName_snd g t).trans (ih _)

/-- Looking names up one after the other is looking each up at once. -/
theorem qualifiedNames_fst (ts : List EntityId) (g : Graph) :
    (qualifiedNames ts g).1 = ts.map fun t ↦ ((g.qualifiedName t).1, t) := by
  induction ts generalizing g with
  | nil => rfl
  | cons t ts ih =>
    have ht : (qualifiedNames ts (g.qualifiedName t).2).1 =
        ts.map fun t ↦ ((g.qualifiedName t).1, t) := by
      rw [ih]
      exact List.map_congr_left fun t' _ ↦
        by rw [(Settled.qualifiedName_snd g t).qualifiedName t']
    rw [List.map_cons, ← ht]
    rfl

/-- A unit that a handle holds is live already, so it does not matter that a registry holds it
too. -/
theorem Settled.takeUp (g : Graph) (i : RegistryId) {u : UnitId} (hu : g.isHeld (.unit u) = true)
    (n : String) (ts : List (String × EntityId)) : Settled g (g.takeUp i u n ts).1 := by
  have heq := takeUp_fst_eq g i u n ts
  have hh : (g.takeUp i u n ts).1.handles = g.handles := by rw [heq]
  have hunit (v : UnitId) : (g.takeUp i u n ts).1.unit v = g.unit v := by rw [heq]; rfl
  have hentity (e : EntityId) : (g.takeUp i u n ts).1.entity e = g.entity e := by rw [heq]; rfl
  have hlive (v : UnitId) : (g.takeUp i u n ts).1.unitIsLive v = g.unitIsLive v := by
    by_cases hvu : v = u
    · subst hvu
      have hu' : (g.takeUp i v n ts).1.isHeld (.unit v) = true := by rwa [Graph.isHeld, hh]
      rw [unitIsLive, unitIsLive, hu, hu', Bool.true_or, Bool.true_or]
    · have hc (j : RegistryId) : ((g.takeUp i u n ts).1.registry j).units.contains v =
          (g.registry j).units.contains v := by
        rw [units_takeUp]
        split
        · simp [hvu]
        · rfl
      simp only [unitIsLive, Graph.isHeld, hh, length_registries_takeUp, hc]
  refine ⟨hh, fun v ↦ by rw [hunit], fun v ↦ by rw [hunit], fun v ↦ by rw [hunit],
    fun e ↦ by rw [hentity], hlive, fun e ↦ ?_⟩
  rw [packageName_fst, packageName_fst, hentity, funext hlive]
  simp only [hunit]

/-! ## Registering a unit -/

/-- The types of a unit with their qualified names. -/
def namedTypes (g : Graph) (u : UnitId) : List (String × EntityId) :=
  (g.unit u).types.map fun t ↦ ((g.qualifiedName t).1, t)

theorem Settled.namedTypes (h : Settled g g') (u : UnitId) : g'.namedTypes u = g.namedTypes u := by
  rw [Graph.namedTypes, Graph.namedTypes, h.types u]
  exact List.map_congr_left fun t _ ↦ by rw [h.qualifiedName t]

/-- Freezing an entity concerns entities only. -/
theorem freeze_eq (g : Graph) (e : EntityId) :
    g.freeze e = { g with entities := (g.freeze e).entities } := by
  rw [freeze]
  induction g.descendants e generalizing g with
  | nil => rfl
  | cons e es ih => exact ih _

/-- Freezing a unit concerns entities and units only. -/
theorem freezeUnit_eq (g : Graph) (u : UnitId) : g.freezeUnit u =
    { g with entities := (g.freezeUnit u).entities, units := (g.freezeUnit u).units } := by
  have ht (ts : List EntityId) (g : Graph) :
      ts.foldl freeze g = { g with entities := (ts.foldl freeze g).entities } := by
    induction ts generalizing g with
    | nil => rfl
    | cons t ts ih =>
      have hrest := ih (g.freeze t)
      rw [List.foldl_cons, hrest, freeze_eq]
  rw [freezeUnit, ht]
  rfl

/-- Looking names up concerns entities only. -/
theorem qualifiedNames_eq (ts : List EntityId) (g : Graph) :
    (qualifiedNames ts g).2 = { g with entities := (qualifiedNames ts g).2.entities } := by
  have hp (g : Graph) (t : EntityId) :
      (g.packageName t).2 = { g with entities := (g.packageName t).2.entities } := by
    rw [packageName]
    split
    · split <;> rfl
    · rfl
  induction ts generalizing g with
  | nil => rfl
  | cons t ts ih =>
    have hnote := hp g t
    have hrest := ih (g.packageName t).2
    change (qualifiedNames ts (g.packageName t).2).2 =
      { g with entities := (qualifiedNames ts (g.packageName t).2).2.entities }
    generalize (qualifiedNames ts (g.packageName t).2).2 = g' at hrest ⊢
    rw [hrest, hnote]

/-- The graph in which a unit is frozen and its types have been asked for their names. -/
def named (g : Graph) (u : UnitId) : Graph :=
  (qualifiedNames (g.unit u).types (g.freezeUnit u)).2

/-- Naming a unit concerns entities and units only. -/
theorem named_eq (g : Graph) (u : UnitId) :
    g.named u = { g with entities := (g.named u).entities, units := (g.named u).units } := by
  rw [named, qualifiedNames_eq, freezeUnit_eq]

theorem Apart.named (h : g.Apart) (u : UnitId) : (g.named u).Apart := by
  rw [named_eq]
  exact h.congr rfl rfl

theorem settled_named (g : Graph) (u : UnitId) : Settled g (g.named u) :=
  (Settled.freezeUnit g u).trans (Settled.qualifiedNames_snd _ _)

theorem registry_named (g : Graph) (u : UnitId) (i : RegistryId) :
    (g.named u).registry i = g.registry i := by
  rw [named_eq]
  rfl

/-- What a registry becomes, and which names were taken, when a unit is registered. -/
def registered (g : Graph) (i : RegistryId) (u : UnitId) :
    Registry UnitId EntityId × List String :=
  (g.registry i).register u (g.unit u).packageName (g.namedTypes u)

/-- Registering a unit takes it up with the names that its types have before. -/
theorem addToRegistry_eq (g : Graph) (i : RegistryId) (u : UnitId) :
    g.addToRegistry i u =
      (((g.named u).takeUp i u (g.unit u).packageName (g.namedTypes u)).1,
        ((g.named u).takeUp i u (g.unit u).packageName (g.namedTypes u)).2.map
          (duplicateWarning · (g.unit u).path)) := by
  have hf := Settled.freezeUnit g u
  have hn : (qualifiedNames (g.unit u).types (g.freezeUnit u)).1 = g.namedTypes u := by
    rw [qualifiedNames_fst, ← hf.types u, ← hf.namedTypes u, namedTypes]
  simp only [addToRegistry, hf.types, hf.unitPackageName, hf.path, hn, named]

theorem Settled.addToRegistry (g : Graph) (i : RegistryId) {u : UnitId}
    (hu : g.isHeld (.unit u) = true) : Settled g (g.addToRegistry i u).1 := by
  have h := settled_named g u
  rw [addToRegistry_eq]
  exact h.trans (Settled.takeUp _ i ((h.isHeld _).trans hu) _ _)

/-- The registry that a unit is registered with, and the warnings. -/
theorem addToRegistry_self (h : g.OwnsPackages i) (hi : i < g.registries.length) (u : UnitId) :
    (g.addToRegistry i u).1.registry i = (g.registered i u).1 ∧
      (g.addToRegistry i u).2 =
        (g.registered i u).2.map (duplicateWarning · (g.unit u).path) := by
  have hnamed := named_eq g u
  have howns : (g.named u).OwnsPackages i := by rw [hnamed]; exact h.of_eq rfl (Nat.le_refl _)
  have hlt : i < (g.named u).registries.length := by rw [hnamed]; exact hi
  obtain ⟨hregistry, hnames⟩ :=
    registry_takeUp_self howns hlt u (g.unit u).packageName (g.namedTypes u)
  rw [registry_named] at hregistry hnames
  rw [addToRegistry_eq]
  exact ⟨hregistry, congrArg _ hnames⟩

/-- What registries show once a unit has been registered with one of them. -/
theorem registry_addToRegistry (h : g.Apart) (i : RegistryId) (u : UnitId) (j : RegistryId) :
    (g.addToRegistry i u).1.registry j =
      if j = i ∧ j < g.registries.length then (g.registered i u).1 else g.registry j := by
  have hlen : (g.named u).registries.length = g.registries.length := by rw [named_eq]
  rw [addToRegistry_eq, registry_takeUp (h.named u), registry_named, registry_named, hlen]
  rfl

end Graph

end JavaOutline
