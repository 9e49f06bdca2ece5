import JavaOutline.Proofs.Graph.Freezing

/-! # References

Objects refer to each other by number, and a number is given out once.  In a closed graph
(`Graph.Closed`) every number that is mentioned has been given out, so nothing mentions an object
that is yet to be made.  These are the changes of one object, one table or one handle that keep a
graph closed.

Most operations change no link between objects at all (`Graph.SameLinks`): setters of plain
attributes, freezing and the noting of names. -/

namespace JavaOutline

/-- The unit that a declaration of this form refers to. -/
def Form.unit? : Form → Option UnitId
  | .type _ _ _ u _ => u
  | _ => none

theorem Form.kind_eq_of_takes {k l : Kind} (h : k.takes l = true) : k = .method ∨ k = .type := by
  cases k <;> cases l <;> simp [Kind.takes] at h ⊢

theorem Form.unit?_of_kind_ne {f : Form} (h : f.kind ≠ .type) : f.unit? = none := by
  cases f with
  | type => exact absurd rfl h
  | _ => rfl

/-- The object referred to is one of the first `n` entities or the first `m` units, if it is an
entity or a unit at all. -/
def Ref.Within (n m : Nat) : Ref → Prop
  | .entity e => e < n
  | .unit u => u < m
  | _ => True

/-- The entity mentions only the first `n` entities and the first `m` units. -/
structure Entity.Within (n m : Nat) (o : Entity) : Prop where
  members : ∀ e ∈ o.form.members, e < n
  parent : ∀ p ∈ o.parent, p < n
  unit : ∀ u ∈ o.form.unit?, u < m

namespace Graph

variable {g g' : Graph} {n n' m m' : Nat}

/-! ## Closed graphs -/

/-- The graph mentions only the first `n` entities and the first `m` units, every package belongs to
one registry at most, and no handle is there twice. -/
structure Within (n m : Nat) (g : Graph) : Prop where
  entities : ∀ e, (g.entity e).Within n m
  types : ∀ u, ∀ t ∈ (g.unit u).types, t < n
  packages : ∀ p, ∀ t ∈ (g.package p).types, t < n
  registries : ∀ r t, registryLists (g.registry r) t = true → t < n
  units : ∀ r, ∀ u ∈ (g.registry r).units, u < m
  apart : g.Apart
  handles : ∀ p ∈ g.handles, p.2.Within n m
  distinct : (g.handles.map (·.1)).Nodup

/-- The graph mentions only objects that it has. -/
def Closed (g : Graph) : Prop := g.Within g.entities.length g.units.length

end Graph

theorem Ref.Within.mono {n n' m m' : Nat} (hn : n ≤ n') (hm : m ≤ m') {r : Ref}
    (h : r.Within n m) : r.Within n' m' := by
  cases r with
  | entity e => exact Nat.lt_of_lt_of_le h hn
  | unit u => exact Nat.lt_of_lt_of_le h hm
  | _ => trivial

theorem Entity.Within.mono {n n' m m' : Nat} (hn : n ≤ n') (hm : m ≤ m') {o : Entity}
    (h : o.Within n m) : o.Within n' m' where
  members e he := Nat.lt_of_lt_of_le (h.members e he) hn
  parent p hp := Nat.lt_of_lt_of_le (h.parent p hp) hn
  unit u hu := Nat.lt_of_lt_of_le (h.unit u hu) hm

theorem Entity.within_default (n m : Nat) : (default : Entity).Within n m := ⟨nofun, nofun, nofun⟩

namespace Graph

variable {g g' g'' : Graph} {n n' m m' : Nat}

theorem Within.mono (hn : n ≤ n') (hm : m ≤ m') (h : g.Within n m) : g.Within n' m' where
  entities e := (h.entities e).mono hn hm
  types u t ht := Nat.lt_of_lt_of_le (h.types u t ht) hn
  packages p t ht := Nat.lt_of_lt_of_le (h.packages p t ht) hn
  registries r t ht := Nat.lt_of_lt_of_le (h.registries r t ht) hn
  units r u hu := Nat.lt_of_lt_of_le (h.units r u hu) hm
  apart := h.apart
  handles p hp := (h.handles p hp).mono hn hm
  distinct := h.distinct

theorem lt_of_kind_ne_plain {e : EntityId} (h : (g.entity e).form.kind ≠ .plain) :
    e < g.entities.length := by
  by_contra he
  rw [entity, List.getD_eq_default _ _ (Nat.le_of_not_lt he)] at h
  exact h rfl

theorem registryLists_iff {r : Registry UnitId EntityId} {e : EntityId} :
    registryLists r e = true ↔ (∃ t ∈ r.types, t.2 = e) ∨ ∃ p ∈ r.packages, e ∈ p.2 := by
  simp [registryLists]

namespace Closed

theorem empty : Closed {} where
  entities _ := Entity.within_default _ _
  types _ _ ht := absurd ht List.not_mem_nil
  packages _ _ ht := absurd ht List.not_mem_nil
  registries _ _ ht := absurd ht Bool.false_ne_true
  units _ _ hu := absurd hu List.not_mem_nil
  apart := apart_empty
  handles _ hp := absurd hp List.not_mem_nil
  distinct := List.nodup_nil

variable (hg : g.Closed)
include hg

/-! ### Changes of one object -/

theorem modifyEntity (e : EntityId) {f : Entity → Entity}
    (hf : (f (g.entity e)).Within g.entities.length g.units.length) :
    (g.modifyEntity e f).Closed := by
  have h : (g.modifyEntity e f).Within g.entities.length g.units.length := by
    refine { hg with
      entities := fun d ↦ ?_, apart := hg.apart.congr rfl rfl }
    obtain h | ⟨rfl, h⟩ : (g.modifyEntity e f).entity d = g.entity d ∨
        d = e ∧ (g.modifyEntity e f).entity d = f (g.entity d) :=
      getD_modify g.entities e f d default
    · rw [h]
      exact hg.entities d
    · rw [h]
      exact hf
  rwa [Closed, Graph.modifyEntity, List.length_modify]

theorem modifyUnit (u : UnitId) {f : UnitObject → UnitObject}
    (hf : ∀ t ∈ (f (g.unit u)).types, t < g.entities.length) : (g.modifyUnit u f).Closed := by
  have h : (g.modifyUnit u f).Within g.entities.length g.units.length := by
    refine { hg with
      types := fun v t ht ↦ ?_, apart := hg.apart.congr rfl rfl }
    obtain h | ⟨rfl, h⟩ : (g.modifyUnit u f).unit v = g.unit v ∨
        v = u ∧ (g.modifyUnit u f).unit v = f (g.unit v) := getD_modify g.units u f v default
    · rw [h] at ht
      exact hg.types v t ht
    · rw [h] at ht
      exact hf t ht
  rwa [Closed, Graph.modifyUnit, List.length_modify]

theorem modifyPackage (p : PackageId) {f : PackageObject → PackageObject}
    (hf : ∀ t ∈ (f (g.package p)).types, t < g.entities.length) :
    (g.modifyPackage p f).Closed := by
  have htypes (q : PackageId) : ∀ t ∈ ((g.modifyPackage p f).package q).types,
      t < g.entities.length := by
    obtain h | ⟨rfl, h⟩ : (g.modifyPackage p f).package q = g.package q ∨
        q = p ∧ (g.modifyPackage p f).package q = f (g.package q) :=
      getD_modify g.packages p f q default
    · rw [h]
      exact hg.packages q
    · rw [h]
      exact hf
  refine { hg with packages := htypes, registries := fun r t ht ↦ ?_, apart := ?_ }
  · rcases registryLists_iff.1 ht with ht | ⟨c, hc, ht⟩
    · exact hg.registries r t (registryLists_iff.2 (.inl ht))
    · obtain ⟨c, -, rfl⟩ := List.mem_map.1 hc
      exact htypes c.2 t ht
  · exact hg.apart.of_eq (fun _ ↦ rfl) (Nat.le_of_eq (List.length_modify ..).symm)

/-! ### Handles -/

theorem bind (s : String) {r : Ref} (hr : r.Within g.entities.length g.units.length) :
    (g.bind s r).Closed := by
  refine { hg with
    apart := hg.apart.congr rfl rfl, handles := fun p hp ↦ ?_
    distinct := ?_ }
  · rcases mem_handles_bind hp with hp | hp
    · exact hg.handles p hp
    · rw [hp]
      exact hr
  · rw [Graph.bind]
    split
    next =>
      have hs : (·.1) ∘ (fun p : String × Ref ↦ if p.1 = s then (s, r) else p) = (·.1) := by
        funext p
        by_cases hp : p.1 = s
        · rw [Function.comp_apply, if_pos hp, hp]
        · rw [Function.comp_apply, if_neg hp]
      rw [List.map_map, hs]
      exact hg.distinct
    next hs =>
      rw [List.map_append, List.map_singleton, List.nodup_append]
      refine ⟨hg.distinct, List.nodup_singleton _, fun a ha b hb ↦ ?_⟩
      rintro rfl
      obtain ⟨p, hp, rfl⟩ := List.mem_map.1 ha
      refine hs (List.any_eq_true.2 ⟨p, hp, ?_⟩)
      rw [List.mem_singleton.1 hb]
      exact beq_self_eq_true s

theorem drop (s : String) : (g.drop s).Closed :=
  { hg with
    apart := hg.apart.congr rfl rfl
    handles := fun p hp ↦ hg.handles p (List.mem_of_mem_filter hp)
    distinct := hg.distinct.sublist (List.filter_sublist.map _) }

theorem of_bound? {s : String} {r : Ref} (h : g.bound? s = some r) :
    r.Within g.entities.length g.units.length := by
  obtain ⟨l₁, l₂, hl, -⟩ := List.lookup_eq_some_iff.1 h
  exact hg.handles (s, r) (hl ▸ by simp)

/-- A change of entities alone. -/
theorem of_entities (he : g' = { g with entities := g'.entities })
    (hn : g'.entities.length = g.entities.length)
    (h : ∀ e, (g'.entity e).Within g.entities.length g.units.length) : g'.Closed := by
  have h : Within g.entities.length g.units.length { g with entities := g'.entities } :=
    { hg with entities := h, apart := hg.apart.congr rfl rfl }
  rw [← he] at h
  have hm : g'.units.length = g.units.length := by rw [he]
  rwa [Closed, hn, hm]

end Closed

/-! ## Changes that leave all links alone -/

/-- Which object refers to which is the same in both graphs; there may be new objects in the second
one, without any links. -/
structure SameLinks (g g' : Graph) : Prop where
  entities : g.entities.length ≤ g'.entities.length
  units : g.units.length ≤ g'.units.length
  packageObjects : g.packages.length ≤ g'.packages.length
  kind : ∀ e < g.entities.length, (g'.entity e).form.kind = (g.entity e).form.kind
  members : ∀ e, (g'.entity e).form.members = (g.entity e).form.members
  parent : ∀ e, (g'.entity e).parent = (g.entity e).parent
  unit : ∀ e, (g'.entity e).form.unit? = (g.entity e).form.unit?
  types : ∀ u, (g'.unit u).types = (g.unit u).types
  packages : ∀ p, (g'.package p).types = (g.package p).types
  registryObject : ∀ r, g'.registryObject r = g.registryObject r
  handles : g'.handles = g.handles

namespace SameLinks

theorem refl (g : Graph) : SameLinks g g :=
  ⟨Nat.le_refl _, Nat.le_refl _, Nat.le_refl _, fun _ _ ↦ rfl, fun _ ↦ rfl, fun _ ↦ rfl,
    fun _ ↦ rfl, fun _ ↦ rfl, fun _ ↦ rfl, fun _ ↦ rfl, rfl⟩

theorem trans (h : SameLinks g g') (h' : SameLinks g' g'') : SameLinks g g'' where
  entities := Nat.le_trans h.entities h'.entities
  units := Nat.le_trans h.units h'.units
  packageObjects := Nat.le_trans h.packageObjects h'.packageObjects
  kind e he := (h'.kind e (Nat.lt_of_lt_of_le he h.entities)).trans (h.kind e he)
  members e := (h'.members e).trans (h.members e)
  parent e := (h'.parent e).trans (h.parent e)
  unit e := (h'.unit e).trans (h.unit e)
  types u := (h'.types u).trans (h.types u)
  packages p := (h'.packages p).trans (h.packages p)
  registryObject r := (h'.registryObject r).trans (h.registryObject r)
  handles := h'.handles.trans h.handles

theorem registry (h : SameLinks g g') (r : RegistryId) : g'.registry r = g.registry r :=
  registry_congr (h.registryObject r) fun c _ ↦ h.packages c.2

theorem closed (h : SameLinks g g') (hg : g.Closed) : g'.Closed := by
  refine Within.mono h.entities h.units
    ⟨fun e ↦ ⟨?_, ?_, ?_⟩, fun u ↦ ?_, fun p ↦ ?_, fun r ↦ ?_, fun r ↦ ?_, ?_, ?_, ?_⟩
  · rw [h.members]
    exact (hg.entities e).members
  · rw [h.parent]
    exact (hg.entities e).parent
  · rw [h.unit]
    exact (hg.entities e).unit
  · rw [h.types]
    exact hg.types u
  · rw [h.packages]
    exact hg.packages p
  · rw [h.registry]
    exact hg.registries r
  · rw [h.registry]
    exact hg.units r
  · exact hg.apart.of_eq (fun r ↦ by rw [h.registryObject]) h.packageObjects
  · rw [h.handles]
    exact hg.handles
  · rw [h.handles]
    exact hg.distinct

/-! ### Changes of one object -/

theorem modifyEntity (e : EntityId) {f : Entity → Entity}
    (hk : (f (g.entity e)).form.kind = (g.entity e).form.kind)
    (hm : (f (g.entity e)).form.members = (g.entity e).form.members)
    (hp : (f (g.entity e)).parent = (g.entity e).parent)
    (hu : (f (g.entity e)).form.unit? = (g.entity e).form.unit?) :
    SameLinks g (g.modifyEntity e f) := by
  have hd {α : Type} (a : Entity → α) (ha : a (f (g.entity e)) = a (g.entity e)) (d : EntityId) :
      a ((g.modifyEntity e f).entity d) = a (g.entity d) := by
    obtain h | ⟨rfl, h⟩ : (g.modifyEntity e f).entity d = g.entity d ∨
        d = e ∧ (g.modifyEntity e f).entity d = f (g.entity d) :=
      getD_modify g.entities e f d default
    · rw [h]
    · rw [h, ha]
  exact { refl g with
    entities := Nat.le_of_eq (List.length_modify ..).symm
    kind := fun d _ ↦ hd (·.form.kind) hk d
    members := hd (·.form.members) hm
    parent := hd (·.parent) hp
    unit := hd (·.form.unit?) hu }

theorem modifyHeader (g : Graph) (e : EntityId) (f : Header → Header) :
    SameLinks g (g.modifyHeader e f) := modifyEntity e rfl rfl rfl rfl

theorem modifyForm (e : EntityId) {f : Form → Form}
    (hk : (f (g.entity e).form).kind = (g.entity e).form.kind)
    (hm : (f (g.entity e).form).members = (g.entity e).form.members)
    (hu : (f (g.entity e).form).unit? = (g.entity e).form.unit?) :
    SameLinks g (g.modifyForm e f) := modifyEntity e hk hm rfl hu

theorem modifyUnit (u : UnitId) {f : UnitObject → UnitObject}
    (hf : (f (g.unit u)).types = (g.unit u).types) : SameLinks g (g.modifyUnit u f) := by
  refine { refl g with units := Nat.le_of_eq (List.length_modify ..).symm, types := fun v ↦ ?_ }
  obtain h | ⟨rfl, h⟩ : (g.modifyUnit u f).unit v = g.unit v ∨
      v = u ∧ (g.modifyUnit u f).unit v = f (g.unit v) := getD_modify g.units u f v default
  · rw [h]
  · rw [h, hf]

theorem modifyPackage (p : PackageId) {f : PackageObject → PackageObject}
    (hf : (f (g.package p)).types = (g.package p).types) : SameLinks g (g.modifyPackage p f) := by
  refine { refl g with
    packages := fun q ↦ ?_, packageObjects := Nat.le_of_eq (List.length_modify ..).symm }
  obtain h | ⟨rfl, h⟩ : (g.modifyPackage p f).package q = g.package q ∨
      q = p ∧ (g.modifyPackage p f).package q = f (g.package q) :=
    getD_modify g.packages p f q default
  · rw [h]
  · rw [h, hf]

theorem modifySink (g : Graph) (s : SinkId) (f : Sink → Sink) : SameLinks g (g.modifySink s f) :=
  { refl g with }

/-! ### New objects -/

/-- An object that is not there has no links, so a new one without links makes no difference. -/
theorem addEntity {o : Entity} (hm : o.form.members = []) (hp : o.parent = none)
    (hu : o.form.unit? = none) : SameLinks g (g.addEntity o).2 := by
  have hd {α : Type} (a : Entity → α) (ha : a o = a default) (d : EntityId) :
      a ((g.addEntity o).2.entity d) = a (g.entity d) := by
    obtain h | ⟨rfl, h⟩ : (g.addEntity o).2.entity d = g.entity d ∨
        d = g.entities.length ∧ (g.addEntity o).2.entity d = o :=
      getD_concat g.entities o d default
    · rw [h]
    · rw [h, ha, entity, List.getD_eq_default _ _ (Nat.le_refl _)]
  exact { refl g with
    entities := (List.prefix_append _ _).length_le
    kind := fun d hd ↦ by rw [entity_addEntity_of_lt o hd]
    members := hd (·.form.members) hm
    parent := hd (·.parent) hp
    unit := hd (·.form.unit?) hu }

theorem addUnit {o : UnitObject} (ho : o.types = []) :
    SameLinks g { g with units := g.units ++ [o] } := by
  refine { refl g with units := (List.prefix_append _ _).length_le, types := fun v ↦ ?_ }
  obtain h | ⟨rfl, h⟩ : Graph.unit { g with units := g.units ++ [o] } v = g.unit v ∨
      v = g.units.length ∧ Graph.unit { g with units := g.units ++ [o] } v = o :=
    getD_concat g.units o v default
  · rw [h]
  · rw [h, ho, Graph.unit, List.getD_eq_default _ _ (Nat.le_refl _)]
    rfl

theorem addPackage {o : PackageObject} (ho : o.types = []) :
    SameLinks g { g with packages := g.packages ++ [o] } := by
  refine { refl g with
    packages := fun p ↦ ?_, packageObjects := (List.prefix_append _ _).length_le }
  obtain h | ⟨rfl, h⟩ : Graph.package { g with packages := g.packages ++ [o] } p = g.package p ∨
      p = g.packages.length ∧ Graph.package { g with packages := g.packages ++ [o] } p = o :=
    getD_concat g.packages o p default
  · rw [h]
  · rw [h, ho, Graph.package, List.getD_eq_default _ _ (Nat.le_refl _)]
    rfl

theorem addRegistry (g : Graph) : SameLinks g { g with registries := g.registries ++ [{}] } :=
  { refl g with registryObject := registryObject_addRegistry g }

theorem addSink (g : Graph) (o : Sink) : SameLinks g { g with sinks := g.sinks ++ [o] } :=
  { refl g with }

/-! ### Freezing and names -/

theorem freeze (g : Graph) (e : EntityId) : SameLinks g (g.freeze e) := by
  rw [Graph.freeze]
  induction g.descendants e generalizing g with
  | nil => exact refl g
  | cons e es ih => exact (modifyEntity e rfl rfl rfl rfl).trans (ih _)

theorem freezeUnit (g : Graph) (u : UnitId) : SameLinks g (g.freezeUnit u) := by
  have ht (ts : List EntityId) (g : Graph) : SameLinks g (ts.foldl Graph.freeze g) := by
    induction ts generalizing g with
    | nil => exact refl g
    | cons t ts ih => exact (freeze g t).trans (ih _)
  exact (ht _ g).trans (modifyUnit u rfl)

theorem packageName (g : Graph) (t : EntityId) : SameLinks g (g.packageName t).2 := by
  rw [Graph.packageName]
  split
  next ht =>
    split
    next u _ =>
      change SameLinks g (g.modifyForm t fun
        | .type head fs ms v _ => .type head fs ms v (g.unit u).packageName
        | f => f)
      apply modifyForm t <;> rw [ht] <;> rfl
    next => exact refl g
  next => exact refl g

theorem qualifiedNames (ts : List EntityId) (g : Graph) :
    SameLinks g (Graph.qualifiedNames ts g).2 := by
  induction ts generalizing g with
  | nil => exact refl g
  | cons t ts ih => exact (packageName g t).trans (ih _)

end SameLinks

end Graph

end JavaOutline
