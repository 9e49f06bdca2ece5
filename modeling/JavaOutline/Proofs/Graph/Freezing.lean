import JavaOutline.Graph.Value
import JavaOutline.Proofs.Graph.Naming
import JavaOutline.Proofs.Outcome
import Mathlib.Data.List.GetD

/-! # Frozen objects

Freezing reaches everything below an object, and what is frozen stays as it is.  Both rest on one
invariant: parameters are listed by methods, fields and methods by types, and types by units, so
nothing lies more than two steps below an entity (`Graph.Sound`).  `Graph.Proceeds` says of a change
that it keeps the invariant and leaves all that is frozen alone; the operations on the graph are
composed of a few changes for which this is shown first. -/

namespace JavaOutline

/-! ## Kinds of declarations -/

namespace Form

/-- The kinds of declarations. -/
inductive Kind where
  | plain | parameter | field | method | type
deriving DecidableEq, Repr

/-- What kind of declaration has this form. -/
def kind : Form → Kind
  | .plain => .plain
  | .parameter .. => .parameter
  | .field .. => .field
  | .method .. => .method
  | .type .. => .type

/-- Whether an entity of the first kind lists entities of the second among its members. -/
def Kind.takes : Kind → Kind → Bool
  | .method, .parameter | .type, .field | .type, .method => true
  | _, _ => false

/-- What a declaration of this form consists of; the unit that a type refers to is no part of it. -/
def content : Form → Form
  | .type head fs ms _ _ => .type head fs ms none ""
  | f => f

@[simp] theorem members_content (f : Form) : f.content.members = f.members := by
  cases f <;> rfl

@[simp] theorem kind_content (f : Form) : f.content.kind = f.kind := by
  cases f <;> rfl

theorem members_eq_nil_of_takes {k : Kind} {f : Form} (hk : k.takes f.kind = true)
    (hf : f.kind ≠ .method) : f.members = [] := by
  cases f with
  | type => cases k <;> simp [kind, Kind.takes] at hk
  | method => exact absurd rfl hf
  | _ => rfl

end Form

namespace Graph

variable {g g' g'' : Graph}

/-! ## The invariant -/

/-- Everything below something frozen is frozen. -/
structure FrozenBelow (g : Graph) : Prop where
  members : ∀ e, (g.entity e).frozen = true →
    ∀ m ∈ (g.entity e).form.members, (g.entity m).frozen = true
  types : ∀ u, (g.unit u).frozen = true → ∀ t ∈ (g.unit u).types, (g.entity t).frozen = true
  units : ∀ r, ∀ u ∈ (g.registry r).units, (g.unit u).frozen = true

/-- The object has been made. -/
def Has (g : Graph) : Ref → Prop
  | .entity e => e < g.entities.length
  | .unit u => u < g.units.length
  | _ => True

/-- Members and types are of the right kind, handles hold objects that exist, and everything below
something frozen is frozen. -/
structure Sound (g : Graph) : Prop extends FrozenBelow g where
  kinds : ∀ e, ∀ m ∈ (g.entity e).form.members,
    (g.entity e).form.kind.takes (g.entity m).form.kind = true
  typeKinds : ∀ u, ∀ t ∈ (g.unit u).types, (g.entity t).form.kind = .type
  handles : ∀ p ∈ g.handles, g.Has p.2

/-- What is frozen has stayed as it was. -/
structure Keeps (g g' : Graph) : Prop where
  frozen : ∀ e, (g.entity e).frozen = true → (g'.entity e).frozen = true
  header : ∀ e, (g.entity e).frozen = true → (g'.entity e).header = (g.entity e).header
  content : ∀ e, (g.entity e).frozen = true →
    (g'.entity e).form.content = (g.entity e).form.content
  unit : ∀ u, (g.unit u).frozen = true → g'.unit u = g.unit u

namespace Keeps

theorem refl (g : Graph) : Keeps g g :=
  ⟨fun _ h ↦ h, fun _ _ ↦ rfl, fun _ _ ↦ rfl, fun _ _ ↦ rfl⟩

theorem trans (h : Keeps g g') (h' : Keeps g' g'') : Keeps g g'' where
  frozen e he := h'.frozen e (h.frozen e he)
  header e he := (h'.header e (h.frozen e he)).trans (h.header e he)
  content e he := (h'.content e (h.frozen e he)).trans (h.content e he)
  unit u hu := by
    have hu' := h.unit u hu
    exact (h'.unit u (hu'.symm ▸ hu)).trans hu'

end Keeps

/-- A change that keeps the invariant and leaves alone what is frozen. -/
def Proceeds (g g' : Graph) : Prop := g.Sound → g'.Sound ∧ Keeps g g'

namespace Proceeds

theorem refl (g : Graph) : Proceeds g g := fun h ↦ ⟨h, .refl g⟩

theorem trans (h : Proceeds g g') (h' : Proceeds g' g'') : Proceeds g g'' := fun hg ↦
  ⟨(h' (h hg).1).1, (h hg).2.trans (h' (h hg).1).2⟩

end Proceeds

/-! ## Objects that exist -/

theorem lt_of_frozen {e : EntityId} (h : (g.entity e).frozen = true) : e < g.entities.length := by
  by_contra he
  rw [entity, List.getD_eq_default _ _ (Nat.le_of_not_lt he)] at h
  cases h

theorem lt_of_takes {e : EntityId} {k : Form.Kind} (h : k.takes (g.entity e).form.kind = true) :
    e < g.entities.length := by
  by_contra he
  rw [entity, List.getD_eq_default _ _ (Nat.le_of_not_lt he)] at h
  cases k <;> cases h

theorem lt_of_kind_eq_type {e : EntityId} (h : (g.entity e).form.kind = .type) :
    e < g.entities.length := by
  by_contra he
  rw [entity, List.getD_eq_default _ _ (Nat.le_of_not_lt he)] at h
  cases h

theorem unit_lt_of_frozen {u : UnitId} (h : (g.unit u).frozen = true) : u < g.units.length := by
  by_contra hu
  rw [unit, List.getD_eq_default _ _ (Nat.le_of_not_lt hu)] at h
  cases h

theorem Has.mono {r : Ref} (h : g.Has r) (he : g.entities.length ≤ g'.entities.length)
    (hu : g.units.length ≤ g'.units.length) : g'.Has r := by
  cases r with
  | entity e => exact Nat.lt_of_lt_of_le h he
  | unit u => exact Nat.lt_of_lt_of_le h hu
  | _ => trivial

theorem mem_handles_bind {s : String} {r : Ref} {p : String × Ref} (h : p ∈ (g.bind s r).handles) :
    p ∈ g.handles ∨ p.2 = r := by
  rw [Graph.bind] at h
  split at h
  · obtain ⟨q, hq, rfl⟩ := List.mem_map.1 h
    split
    · exact .inr rfl
    · exact .inl hq
  · rcases List.mem_append.1 h with h | h
    · exact .inl h
    · exact .inr (by rw [List.mem_singleton.1 h])

theorem entity_addEntity_of_lt (o : Entity) {e : EntityId} (he : e < g.entities.length) :
    (g.addEntity o).2.entity e = g.entity e := List.getD_append _ _ _ _ he

theorem sound_empty : Sound {} where
  members _ h := absurd (lt_of_frozen h) (Nat.not_lt_zero _)
  types _ h := absurd (unit_lt_of_frozen h) (Nat.not_lt_zero _)
  units _ _ hu := absurd hu List.not_mem_nil
  kinds _ _ hm := absurd hm List.not_mem_nil
  typeKinds _ _ ht := absurd ht List.not_mem_nil
  handles _ hp := absurd hp List.not_mem_nil

/-! ## Changes -/

namespace Proceeds

/-- A change of an entity that keeps its kind, and all of it if it is frozen. -/
theorem modifyEntity (e : EntityId) {f : Entity → Entity}
    (hk : (f (g.entity e)).form.kind = (g.entity e).form.kind)
    (hf : (f (g.entity e)).frozen = (g.entity e).frozen)
    (hh : (g.entity e).frozen = true → (f (g.entity e)).header = (g.entity e).header)
    (hc : (g.entity e).frozen = true →
      (f (g.entity e)).form.content = (g.entity e).form.content)
    (hm : ∀ m ∈ (f (g.entity e)).form.members, m ∈ (g.entity e).form.members ∨
      (g.entity e).form.kind.takes (g.entity m).form.kind = true) :
    Proceeds g (g.modifyEntity e f) := by
  intro hg
  have hd (d : EntityId) : (g.modifyEntity e f).entity d = g.entity d ∨
      d = e ∧ (g.modifyEntity e f).entity d = f (g.entity d) := getD_modify g.entities e f d default
  have hkind (d : EntityId) :
      ((g.modifyEntity e f).entity d).form.kind = (g.entity d).form.kind := by
    obtain h | ⟨rfl, h⟩ := hd d
    · rw [h]
    · rw [h, hk]
  have hfrozen (d : EntityId) :
      ((g.modifyEntity e f).entity d).frozen = (g.entity d).frozen := by
    obtain h | ⟨rfl, h⟩ := hd d
    · rw [h]
    · rw [h, hf]
  have hcontent (d : EntityId) (hdf : (g.entity d).frozen = true) :
      ((g.modifyEntity e f).entity d).form.content = (g.entity d).form.content := by
    obtain h | ⟨rfl, h⟩ := hd d
    · rw [h]
    · rw [h, hc hdf]
  refine ⟨⟨⟨fun d hdf m hm ↦ ?_, fun u hu t ht ↦ ?_, hg.units⟩, fun d m hdm ↦ ?_,
    fun u t ht ↦ ?_, fun p hp ↦ ?_⟩, ⟨fun d hdf ↦ ?_, fun d hdf ↦ ?_, hcontent, fun _ _ ↦ rfl⟩⟩
  · rw [hfrozen] at hdf ⊢
    rw [← Form.members_content, hcontent d hdf, Form.members_content] at hm
    exact hg.members d hdf m hm
  · rw [hfrozen]
    exact hg.types u hu t ht
  · rw [hkind, hkind]
    obtain h | ⟨rfl, h⟩ := hd d
    · rw [h] at hdm
      exact hg.kinds d m hdm
    · rw [h] at hdm
      exact (hm m hdm).elim (hg.kinds d m) id
  · rw [hkind]
    exact hg.typeKinds u t ht
  · exact (hg.handles p hp).mono (Nat.le_of_eq (List.length_modify ..).symm) (Nat.le_refl _)
  · rwa [hfrozen]
  · obtain h | ⟨rfl, h⟩ := hd d
    · rw [h]
    · rw [h, hh hdf]

/-- A new entity without members. -/
theorem addEntity {o : Entity} (hm : o.form.members = []) :
    Proceeds g (g.addEntity o).2 := by
  intro hg
  have hd (d : EntityId) : (g.addEntity o).2.entity d = g.entity d ∨
      d = g.entities.length ∧ (g.addEntity o).2.entity d = o := getD_concat g.entities o d default
  have hold {d : EntityId} (h : (g.entity d).frozen = true) :
      (g.addEntity o).2.entity d = g.entity d := entity_addEntity_of_lt o (lt_of_frozen h)
  refine ⟨⟨⟨fun d hdf m hdm ↦ ?_, fun u hu t ht ↦ ?_, hg.units⟩, fun d m hdm ↦ ?_,
    fun u t ht ↦ ?_, fun p hp ↦ ?_⟩, ⟨fun d hdf ↦ ?_, fun d hdf ↦ ?_, fun d hdf ↦ ?_,
    fun _ _ ↦ rfl⟩⟩
  · obtain h | ⟨-, h⟩ := hd d
    · rw [h] at hdf hdm
      have hmf := hg.members d hdf m hdm
      rw [hold hmf, hmf]
    · rw [h, hm] at hdm
      cases hdm
  · have htf := hg.types u hu t ht
    rw [hold htf, htf]
  · obtain h | ⟨-, h⟩ := hd d
    · rw [h] at hdm ⊢
      have hk := hg.kinds d m hdm
      rw [entity_addEntity_of_lt o (lt_of_takes hk), hk]
    · rw [h, hm] at hdm
      cases hdm
  · have hk := hg.typeKinds u t ht
    rw [entity_addEntity_of_lt o (lt_of_kind_eq_type hk), hk]
  · exact (hg.handles p hp).mono (List.prefix_append _ _).length_le (Nat.le_refl _)
  · rw [hold hdf, hdf]
  · rw [hold hdf]
  · rw [hold hdf]

/-- A change of a unit that keeps all of it if it is frozen. -/
theorem modifyUnit (u : UnitId) {f : UnitObject → UnitObject}
    (hf : (g.unit u).frozen = true → f (g.unit u) = g.unit u)
    (hb : (f (g.unit u)).frozen = true → ∀ t ∈ (f (g.unit u)).types, (g.entity t).frozen = true)
    (hk : ∀ t ∈ (f (g.unit u)).types, (g.entity t).form.kind = .type) :
    Proceeds g (g.modifyUnit u f) := by
  intro hg
  have hv (v : UnitId) : (g.modifyUnit u f).unit v = g.unit v ∨
      v = u ∧ (g.modifyUnit u f).unit v = f (g.unit v) := getD_modify g.units u f v default
  have hkeep (v : UnitId) (hvf : (g.unit v).frozen = true) :
      (g.modifyUnit u f).unit v = g.unit v := by
    obtain h | ⟨rfl, h⟩ := hv v
    · exact h
    · rw [h, hf hvf]
  refine ⟨⟨⟨hg.members, fun v hvf t ht ↦ ?_, fun r v hr ↦ ?_⟩, hg.kinds, fun v t ht ↦ ?_,
    fun p hp ↦ ?_⟩, ⟨fun _ h ↦ h, fun _ _ ↦ rfl, fun _ _ ↦ rfl, hkeep⟩⟩
  · obtain h | ⟨rfl, h⟩ := hv v
    · rw [h] at hvf ht
      exact hg.types v hvf t ht
    · rw [h] at hvf ht
      exact hb hvf t ht
  · have hvf := hg.units r v hr
    rw [hkeep v hvf, hvf]
  · obtain h | ⟨rfl, h⟩ := hv v
    · rw [h] at ht
      exact hg.typeKinds v t ht
    · rw [h] at ht
      exact hk t ht
  · exact (hg.handles p hp).mono (Nat.le_refl _) (Nat.le_of_eq (List.length_modify ..).symm)

/-- A new unit without types. -/
theorem addUnit {o : UnitObject} (hf : o.frozen = false) (ht : o.types = []) :
    Proceeds g { g with units := g.units ++ [o] } := by
  intro hg
  have hv (v : UnitId) : Graph.unit { g with units := g.units ++ [o] } v = g.unit v ∨
      v = g.units.length ∧ Graph.unit { g with units := g.units ++ [o] } v = o :=
    getD_concat g.units o v default
  have hold {v : UnitId} (h : (g.unit v).frozen = true) :
      Graph.unit { g with units := g.units ++ [o] } v = g.unit v :=
    List.getD_append _ _ _ _ (unit_lt_of_frozen h)
  refine ⟨⟨⟨hg.members, fun v hvf t hvt ↦ ?_, fun r v hr ↦ ?_⟩, hg.kinds, fun v t hvt ↦ ?_,
    fun p hp ↦ ?_⟩, ⟨fun _ h ↦ h, fun _ _ ↦ rfl, fun _ _ ↦ rfl, fun v hvf ↦ hold hvf⟩⟩
  · obtain h | ⟨-, h⟩ := hv v
    · rw [h] at hvf hvt
      exact hg.types v hvf t hvt
    · rw [h, hf] at hvf
      cases hvf
  · have hvf := hg.units r v hr
    rw [hold hvf, hvf]
  · obtain h | ⟨-, h⟩ := hv v
    · rw [h] at hvt
      exact hg.typeKinds v t hvt
    · rw [h, ht] at hvt
      cases hvt
  · exact (hg.handles p hp).mono (Nat.le_refl _) (List.prefix_append _ _).length_le

/-- A change of handles and registries: what a handle holds exists, and a registry takes up only
what is frozen. -/
theorem of_objects_eq (he : g'.entities = g.entities) (hu : g'.units = g.units)
    (hr : ∀ r, ∀ u ∈ (g'.registry r).units, u ∈ (g.registry r).units ∨ (g.unit u).frozen = true)
    (hh : ∀ p ∈ g'.handles, p ∈ g.handles ∨ g.Has p.2) : Proceeds g g' := by
  intro hg
  have hentity : g'.entity = g.entity := by funext e; rw [entity, entity, he]
  have hunit : g'.unit = g.unit := by funext u; rw [unit, unit, hu]
  refine ⟨⟨⟨?_, ?_, fun r u hru ↦ ?_⟩, ?_, ?_, fun p hp ↦ ?_⟩, ⟨?_, ?_, ?_, ?_⟩⟩
  · rw [hentity]
    exact hg.members
  · rw [hentity, hunit]
    exact hg.types
  · rw [hunit]
    exact (hr r u hru).elim (hg.units r u) id
  · rw [hentity]
    exact hg.kinds
  · rw [hentity, hunit]
    exact hg.typeKinds
  · exact ((hh p hp).elim (hg.handles p) id).mono (Nat.le_of_eq (he ▸ rfl))
      (Nat.le_of_eq (hu ▸ rfl))
  · rw [hentity]
    exact fun _ h ↦ h
  · rw [hentity]
    exact fun _ _ ↦ rfl
  · rw [hentity]
    exact fun _ _ ↦ rfl
  · rw [hunit]
    exact fun _ _ ↦ rfl

end Proceeds

/-! ## Freezing -/

theorem entity_modifyEntity (g : Graph) (e : EntityId) (f : Entity → Entity) (d : EntityId) :
    (g.modifyEntity e f).entity d =
      if d = e ∧ d < g.entities.length then f (g.entity d) else g.entity d :=
  getD_modify_eq g.entities e f d default

theorem entity_freeze (g : Graph) (e d : EntityId) :
    (g.freeze e).entity d =
      if d ∈ g.descendants e ∧ d < g.entities.length then { g.entity d with frozen := true }
      else g.entity d := by
  rw [freeze]
  induction g.descendants e generalizing g with
  | nil => simp
  | cons e es ih =>
    rw [List.foldl_cons, ih, entity_modifyEntity, modifyEntity, List.length_modify]
    by_cases hd : d < g.entities.length
    · by_cases he : d = e
      · subst he
        by_cases hes : d ∈ es <;> simp [hd, hes]
      · by_cases hes : d ∈ es <;> simp [hd, he, hes]
    · simp [hd]

theorem units_freeze (g : Graph) (e : EntityId) : (g.freeze e).units = g.units := by
  rw [freeze_eq]

theorem registry_freeze (g : Graph) (e : EntityId) : (g.freeze e).registry = g.registry := by
  rw [freeze_eq]
  rfl

theorem handles_freeze (g : Graph) (e : EntityId) : (g.freeze e).handles = g.handles := by
  rw [freeze_eq]

theorem entities_length_freeze (g : Graph) (e : EntityId) :
    (g.freeze e).entities.length = g.entities.length := by
  rw [freeze]
  induction g.descendants e generalizing g with
  | nil => rfl
  | cons e es ih => rw [List.foldl_cons, ih, modifyEntity, List.length_modify]

@[simp] theorem header_freeze (g : Graph) (e d : EntityId) :
    ((g.freeze e).entity d).header = (g.entity d).header := by
  rw [entity_freeze]
  split <;> rfl

@[simp] theorem form_freeze (g : Graph) (e d : EntityId) :
    ((g.freeze e).entity d).form = (g.entity d).form := by
  rw [entity_freeze]
  split <;> rfl

theorem frozen_freeze_iff {e d : EntityId} :
    ((g.freeze e).entity d).frozen = true ↔
      (g.entity d).frozen = true ∨ d ∈ g.descendants e ∧ d < g.entities.length := by
  rw [entity_freeze]
  split
  next h => exact iff_of_true rfl (.inr h)
  next h => exact (or_iff_left h).symm

theorem mem_descendants_iff {e d : EntityId} :
    d ∈ g.descendants e ↔ d = e ∨ d ∈ (g.entity e).form.members ∨
      ∃ m ∈ (g.entity e).form.members, d ∈ (g.entity m).form.members := by
  rw [descendants, List.mem_cons, List.mem_flatMap]
  refine or_congr_right ⟨?_, ?_⟩
  · rintro ⟨m, hm, hd⟩
    rcases List.mem_cons.1 hd with rfl | hd
    · exact .inl hm
    · exact .inr ⟨m, hm, hd⟩
  · rintro (hm | ⟨m, hm, hd⟩)
    · exact ⟨d, hm, List.mem_cons_self⟩
    · exact ⟨m, hm, List.mem_cons_of_mem m hd⟩

/-- Only methods have members and are members themselves. -/
theorem Sound.kind_eq_method (hg : g.Sound) {e m d : EntityId}
    (hm : m ∈ (g.entity e).form.members) (hd : d ∈ (g.entity m).form.members) :
    (g.entity m).form.kind = .method := by
  by_contra hk
  rw [Form.members_eq_nil_of_takes (hg.kinds e m hm) hk] at hd
  cases hd

/-- The members of what is below an entity are below it as well: two steps reach everything. -/
theorem Sound.mem_descendants (hg : g.Sound) {e d m : EntityId} (hd : d ∈ g.descendants e)
    (hm : m ∈ (g.entity d).form.members) : m ∈ g.descendants e := by
  rw [mem_descendants_iff] at hd ⊢
  rcases hd with rfl | hd | ⟨c, hc, hd⟩
  · exact .inr (.inl hm)
  · exact .inr (.inr ⟨d, hd, hm⟩)
  · -- A member of a member is a parameter, and parameters have no members.
    have hk := hg.kinds c d hd
    rw [hg.kind_eq_method hc hd, hg.kind_eq_method hd hm] at hk
    cases hk

theorem Proceeds.freeze (g : Graph) (e : EntityId) : Proceeds g (g.freeze e) := by
  intro hg
  have hunit : (g.freeze e).unit = g.unit := by funext u; rw [unit, unit, units_freeze]
  have hregistry := registry_freeze g e
  have hkept (d : EntityId) (hd : (g.entity d).frozen = true) :
      ((g.freeze e).entity d).frozen = true := frozen_freeze_iff.2 (.inl hd)
  refine ⟨⟨⟨fun d hd m hm ↦ ?_, fun u hu t ht ↦ ?_, ?_⟩, fun d m hm ↦ ?_, fun u t ht ↦ ?_,
    fun p hp ↦ ?_⟩, ⟨hkept, fun d _ ↦ header_freeze g e d, fun d _ ↦ ?_, fun u _ ↦ ?_⟩⟩
  · rw [form_freeze] at hm
    rcases frozen_freeze_iff.1 hd with hd | ⟨hd, -⟩
    · exact hkept m (hg.members d hd m hm)
    · exact frozen_freeze_iff.2 (.inr ⟨hg.mem_descendants hd hm, lt_of_takes (hg.kinds d m hm)⟩)
  · rw [hunit] at hu ht
    exact hkept t (hg.types u hu t ht)
  · rw [hunit, hregistry]
    exact hg.units
  · rw [form_freeze] at hm ⊢
    rw [form_freeze]
    exact hg.kinds d m hm
  · rw [hunit] at ht
    rw [form_freeze]
    exact hg.typeKinds u t ht
  · rw [handles_freeze] at hp
    exact (hg.handles p hp).mono (Nat.le_of_eq (entities_length_freeze g e).symm)
      (Nat.le_of_eq (congrArg _ (units_freeze g e).symm))
  · rw [form_freeze]
  · rw [hunit]

theorem Proceeds.foldl_freeze (ts : List EntityId) (g : Graph) :
    Proceeds g (ts.foldl Graph.freeze g) := by
  induction ts generalizing g with
  | nil => exact .refl g
  | cons t ts ih => exact (Proceeds.freeze g t).trans (ih _)

/-- Freezing entities one after the other freezes each of them, and changes no form. -/
theorem entity_foldl_freeze (ts : List EntityId) (g : Graph) (d : EntityId) :
    ((ts.foldl freeze g).entity d).form = (g.entity d).form ∧
      ((g.entity d).frozen = true ∨ d ∈ ts ∧ d < g.entities.length →
        ((ts.foldl freeze g).entity d).frozen = true) := by
  induction ts generalizing g with
  | nil => simp
  | cons t ts ih =>
    obtain ⟨hform, hfrozen⟩ := ih (g.freeze t)
    refine ⟨hform.trans (form_freeze g t d), ?_⟩
    rintro (hd | ⟨hd, hlt⟩)
    · exact hfrozen (.inl (frozen_freeze_iff.2 (.inl hd)))
    · rcases List.mem_cons.1 hd with rfl | hd
      · exact hfrozen (.inl (frozen_freeze_iff.2
          (.inr ⟨mem_descendants_iff.2 (.inl rfl), hlt⟩)))
      · exact hfrozen (.inr ⟨hd, (entities_length_freeze g t).symm ▸ hlt⟩)

theorem units_foldl_freeze (ts : List EntityId) (g : Graph) :
    (ts.foldl freeze g).units = g.units := by
  induction ts generalizing g with
  | nil => rfl
  | cons t ts ih => exact (ih _).trans (units_freeze g t)

theorem Proceeds.freezeUnit (g : Graph) (u : UnitId) : Proceeds g (g.freezeUnit u) := by
  intro hg
  have hunit (v : UnitId) : ((g.unit u).types.foldl Graph.freeze g).unit v = g.unit v := by
    rw [unit, units_foldl_freeze, unit]
  have hkind (t) (ht : t ∈ (g.unit u).types) := hg.typeKinds u t ht
  refine (Proceeds.foldl_freeze (g.unit u).types g).trans (Proceeds.modifyUnit u ?_ ?_ ?_) hg
  · intro hu
    rw [hunit] at hu ⊢
    rw [← hu]
  · intro _ t ht
    replace ht : t ∈ (g.unit u).types := hunit u ▸ ht
    exact (entity_foldl_freeze _ g t).2 (.inr ⟨ht, lt_of_kind_eq_type (hkind t ht)⟩)
  · intro t ht
    replace ht : t ∈ (g.unit u).types := hunit u ▸ ht
    rw [(entity_foldl_freeze _ g t).1, hkind t ht]

theorem frozen_freezeUnit {u : UnitId} (hu : u < g.units.length) :
    ((g.freezeUnit u).unit u).frozen = true := by
  rw [Graph.freezeUnit, Graph.modifyUnit, unit, List.getD_eq_getElem?_getD, List.getElem?_modify,
    units_foldl_freeze]
  simp [hu]

/-! ## Setters -/

/-- A frozen entity refuses, any other one goes on. -/
theorem checkMutable_eq (g : Graph) (e : EntityId) (property : String) :
    g.checkMutable e property =
      if (g.entity e).frozen then .error (.frozen (g.entity e).header.name property)
      else .ok () := rfl

theorem of_checkMutable {e : EntityId} {property : String} {x : Except Fault Graph}
    (h : (do g.checkMutable e property; x) = .ok g') :
    (g.entity e).frozen = false ∧ x = .ok g' := by
  rw [checkMutable_eq] at h
  split at h
  · cases h
  next hf => exact ⟨by simpa using hf, h⟩

/-! ### Refusals -/

section Refusals

variable {e : EntityId} (he : (g.entity e).frozen = true)
include he

theorem checkMutable_bind (property : String) (x : Except Fault Graph) :
    (do g.checkMutable e property; x) = .error (.frozen (g.entity e).header.name property) := by
  rw [checkMutable_eq, if_pos he]
  rfl

theorem setParentUnit_of_frozen (hk : (g.entity e).form.kind = .type) (u : Option UnitId) :
    g.setParentUnit e u = .error (.frozen (g.entity e).header.name "parent_source") := by
  rw [setParentUnit.eq_def]
  cases hf : (g.entity e).form with
  | type => exact checkMutable_bind he _ _
  | _ => rw [hf] at hk; cases hk

theorem addField_of_frozen (hk : (g.entity e).form.kind = .type) (f : EntityId) :
    g.addField e f = .error (.frozen (g.entity e).header.name "fields") := by
  rw [addField]
  cases hf : (g.entity e).form with
  | type => exact checkMutable_bind he _ _
  | _ => rw [hf] at hk; cases hk

theorem addMethod_of_frozen (hk : (g.entity e).form.kind = .type) (m : EntityId) :
    g.addMethod e m = .error (.frozen (g.entity e).header.name "methods") := by
  rw [addMethod]
  cases hf : (g.entity e).form with
  | type => exact checkMutable_bind he _ _
  | _ => rw [hf] at hk; cases hk

theorem addParameter_of_frozen (hk : (g.entity e).form.kind = .method) (p : EntityId) :
    g.addParameter e p = .error (.frozen (g.entity e).header.name "parameters") := by
  rw [addParameter]
  cases hf : (g.entity e).form with
  | method => exact checkMutable_bind he _ _
  | _ => rw [hf] at hk; cases hk

end Refusals

theorem addType_of_frozen {u : UnitId} (hu : (g.unit u).frozen = true) (t : EntityId) :
    g.addType u t = .error (.frozen (((g.unit u).path.filter (!·.isEmpty)).getD "<source>")
      "classes") := by
  rw [addType, if_pos hu]

/-! ### What setters do -/

namespace Proceeds

theorem modifyHeader {e : EntityId} (he : (g.entity e).frozen = false) (f : Header → Header) :
    Proceeds g (g.modifyHeader e f) :=
  modifyEntity e rfl rfl (fun h ↦ absurd h (by simp [he])) (fun _ ↦ rfl) fun _ hm ↦ .inl hm

theorem setModifiers {e : EntityId} {ms : List String} (h : g.setModifiers e ms = .ok g') :
    Proceeds g g' := by
  obtain ⟨he, h⟩ := of_checkMutable h
  exact Except.ok.inj h ▸ modifyHeader he _

theorem setComment {e : EntityId} {c : Option String} (h : g.setComment e c = .ok g') :
    Proceeds g g' := by
  obtain ⟨he, h⟩ := of_checkMutable h
  exact Except.ok.inj h ▸ modifyHeader he _

theorem setTags {e : EntityId} {ts : List Tag} (h : g.setTags e ts = .ok g') : Proceeds g g' := by
  obtain ⟨he, h⟩ := of_checkMutable h
  exact Except.ok.inj h ▸ modifyHeader he _

theorem setParent {e : EntityId} {p : Option EntityId} (h : g.setParent e p = .ok g') :
    Proceeds g g' := by
  obtain ⟨-, h⟩ := of_checkMutable h
  exact Except.ok.inj h ▸
    modifyEntity e rfl rfl (fun _ ↦ rfl) (fun _ ↦ rfl) fun _ hm ↦ .inl hm

/-- A change of what a type refers to and of the name kept beside it, which are no part of it. -/
theorem modifyForm_of_content {e : EntityId} {f : Form → Form}
    (hf : (f (g.entity e).form).content = (g.entity e).form.content) :
    Proceeds g (g.modifyForm e f) := by
  refine modifyEntity e ?_ rfl (fun _ ↦ rfl) (fun _ ↦ hf) fun m hm ↦ .inl ?_
  · rw [← Form.kind_content, hf, Form.kind_content]
  · rwa [← Form.members_content, hf, Form.members_content] at hm

end Proceeds

/-! ## Owners -/

/-- What setting a parent leaves alone. -/
theorem of_setParent {e : EntityId} {p : Option EntityId} (h : g.setParent e p = .ok g')
    (d : EntityId) : (g'.entity d).form = (g.entity d).form ∧
      (g'.entity d).frozen = (g.entity d).frozen := by
  obtain ⟨-, h⟩ := of_checkMutable h
  cases h
  rw [entity_modifyEntity]
  split <;> exact ⟨rfl, rfl⟩

theorem entities_length_of_adopt {owner e : EntityId} {append : Form → Form}
    (h : g.adopt owner e append = .ok g') : g'.entities.length = g.entities.length := by
  obtain ⟨g₁, hp, h⟩ := bind_eq_ok_iff.1 h
  obtain ⟨-, hp⟩ := of_checkMutable hp
  cases hp
  cases h
  exact (List.length_modify ..).trans (List.length_modify ..)

namespace Proceeds

theorem adopt {owner e : EntityId} {append : Form → Form} (ho : (g.entity owner).frozen = false)
    (hk : (append (g.entity owner).form).kind = (g.entity owner).form.kind)
    (hm : ∀ m ∈ (append (g.entity owner).form).members, m ∈ (g.entity owner).form.members ∨
      (g.entity owner).form.kind.takes (g.entity m).form.kind = true)
    (h : g.adopt owner e append = .ok g') : Proceeds g g' := by
  obtain ⟨g₁, hp, h⟩ := bind_eq_ok_iff.1 h
  cases h
  have hsame := of_setParent hp
  refine (setParent hp).trans (modifyEntity owner ?_ rfl (fun _ ↦ rfl) ?_ ?_)
  · rw [(hsame owner).1, hk]
  · intro hf
    rw [(hsame owner).2, ho] at hf
    cases hf
  · intro m hmem
    rw [(hsame owner).1] at hmem ⊢
    rw [(hsame m).1]
    exact hm m hmem

theorem addParameter {m p : EntityId} (h : g.addParameter m p = .ok g') : Proceeds g g' := by
  rw [Graph.addParameter] at h
  split at h
  next head ps hm =>
    obtain ⟨hf, h⟩ := of_checkMutable h
    split at h
    next hp =>
      refine adopt hf ?_ (fun d hd ↦ ?_) h
      · rw [hm]; rfl
      · rw [hm] at hd ⊢
        rcases List.mem_append.1 hd with hd | hd
        · exact .inl hd
        · rw [List.mem_singleton.1 hd, hp]
          exact .inr rfl
    next => cases h
  next => cases h

theorem addField {t f : EntityId} (h : g.addField t f = .ok g') : Proceeds g g' := by
  rw [Graph.addField] at h
  split at h
  next head fs ms u n ht =>
    obtain ⟨hf, h⟩ := of_checkMutable h
    split at h
    next hfield =>
      refine adopt hf ?_ (fun d hd ↦ ?_) h
      · rw [ht]; rfl
      · rw [ht] at hd ⊢
        rcases List.mem_append.1 hd with hd | hd
        · rcases List.mem_append.1 hd with hd | hd
          · exact .inl (List.mem_append_left ms hd)
          · rw [List.mem_singleton.1 hd, hfield]
            exact .inr rfl
        · exact .inl (List.mem_append_right fs hd)
    next => cases h
  next => cases h

theorem addMethod {t m : EntityId} (h : g.addMethod t m = .ok g') : Proceeds g g' := by
  rw [Graph.addMethod] at h
  split at h
  next head fs ms u n ht =>
    obtain ⟨hf, h⟩ := of_checkMutable h
    split at h
    next hmethod =>
      refine adopt hf ?_ (fun d hd ↦ ?_) h
      · rw [ht]; rfl
      · rw [ht] at hd ⊢
        rcases List.mem_append.1 hd with hd | hd
        · exact .inl (List.mem_append_left ms hd)
        · rcases List.mem_append.1 hd with hd | hd
          · exact .inl (List.mem_append_right fs hd)
          · rw [List.mem_singleton.1 hd, hmethod]
            exact .inr rfl
    next => cases h
  next => cases h

theorem setParentUnit {e : EntityId} {u : Option UnitId} (h : g.setParentUnit e u = .ok g') :
    Proceeds g g' := by
  rw [Graph.setParentUnit.eq_def] at h
  split at h
  next he =>
    obtain ⟨-, h⟩ := of_checkMutable h
    cases h
    exact modifyForm_of_content (by rw [he]; rfl)
  next => cases h

end Proceeds

theorem kind_modifyForm {e : EntityId} {f : Form → Form}
    (hf : (f (g.entity e).form).kind = (g.entity e).form.kind) (d : EntityId) :
    ((g.modifyForm e f).entity d).form.kind = (g.entity d).form.kind := by
  rw [modifyForm, entity_modifyEntity]
  split
  next h => obtain ⟨rfl, -⟩ := h; exact hf
  next => rfl

/-- Only types refer to a unit, and setting that leaves units and kinds alone. -/
theorem of_setParentUnit {e : EntityId} {u : Option UnitId} (h : g.setParentUnit e u = .ok g') :
    (g.entity e).form.kind = .type ∧ g'.units = g.units ∧
      ∀ d, (g'.entity d).form.kind = (g.entity d).form.kind := by
  rw [setParentUnit.eq_def] at h
  split at h
  next he =>
    obtain ⟨-, h⟩ := of_checkMutable h
    cases h
    exact ⟨by rw [he]; rfl, rfl, kind_modifyForm (by rw [he]; rfl)⟩
  next => cases h

namespace Proceeds

theorem addType {u : UnitId} {t : EntityId} (h : g.addType u t = .ok g') : Proceeds g g' := by
  rw [Graph.addType] at h
  split at h
  next => cases h
  next hf =>
    intro hg
    obtain ⟨g₁, hs, h⟩ := bind_eq_ok_iff.1 h
    cases h
    obtain ⟨ht, hunits, hkind⟩ := of_setParentUnit hs
    have hu : g₁.unit u = g.unit u := by rw [unit, hunits, unit]
    refine (setParentUnit hs).trans (modifyUnit u ?_ ?_ ?_) hg
    · intro hf'
      rw [hu] at hf'
      exact absurd hf' hf
    · intro hf'
      rw [hu] at hf'
      exact absurd hf' hf
    · intro d hd
      rw [hu] at hd
      rw [hkind]
      rcases List.mem_append.1 hd with hd | hd
      · exact hg.typeKinds u d hd
      · rw [List.mem_singleton.1 hd, ht]

theorem newMethod_addAll (m : EntityId) (ps : List EntityId) (g : Graph) :
    Proceeds g (newMethod.addAll m ps g).1 := by
  induction ps generalizing g with
  | nil => exact .refl g
  | cons p ps ih =>
    rw [newMethod.addAll]
    cases h : g.addParameter m p with
    | error f => exact .refl g
    | ok g₁ => exact (addParameter h).trans (ih g₁)

/-- A new method takes up its parameters one by one, and stops at the first one that refuses. -/
theorem newMethod (g : Graph) (h : Header) (head : MethodHead) (ps : List EntityId) :
    Proceeds g (g.newMethod h head ps).1 :=
  (addEntity rfl).trans (newMethod_addAll _ ps _)

end Proceeds

theorem entities_length_of_addParameter {m p : EntityId} (h : g.addParameter m p = .ok g') :
    g'.entities.length = g.entities.length := by
  rw [addParameter] at h
  split at h
  · obtain ⟨-, h⟩ := of_checkMutable h
    split at h
    · exact entities_length_of_adopt h
    · cases h
  · cases h

/-- The method that is made is there. -/
theorem has_of_newMethod {h : Header} {head : MethodHead} {ps : List EntityId} {m : EntityId}
    (hm : g.newMethod h head ps = (g', .ok m)) : g'.Has (.entity m) := by
  have hall {ps : List EntityId} {n : EntityId} {g₁ : Graph} (hn : n < g₁.entities.length)
      (h : newMethod.addAll n ps g₁ = (g', .ok m)) : m < g'.entities.length := by
    induction ps generalizing g₁ with
    | nil => cases h; exact hn
    | cons p ps ih =>
      rw [newMethod.addAll] at h
      split at h
      · cases h
      next g₂ hp => exact ih ((entities_length_of_addParameter hp).symm ▸ hn) h
  have hm : newMethod.addAll g.entities.length ps
      (g.addEntity { header := h, form := .method head [] }).2 = (g', .ok m) := hm
  exact hall (by simp [addEntity]) hm

/-! ## Registering -/

namespace Proceeds

theorem packageName (g : Graph) (t : EntityId) : Proceeds g (g.packageName t).2 := by
  rw [Graph.packageName]
  split
  next ht =>
    split
    next u _ =>
      change Proceeds g (g.modifyForm t fun
        | .type head fs ms v _ => .type head fs ms v (g.unit u).packageName
        | f => f)
      exact modifyForm_of_content (by rw [ht]; rfl)
    next => exact .refl g
  next => exact .refl g

theorem qualifiedName (g : Graph) (t : EntityId) : Proceeds g (g.qualifiedName t).2 :=
  packageName g t

theorem qualifiedNames (ts : List EntityId) (g : Graph) :
    Proceeds g (Graph.qualifiedNames ts g).2 := by
  induction ts generalizing g with
  | nil => exact .refl g
  | cons t ts ih => exact (qualifiedName g t).trans (ih _)

/-- A registry takes up a unit only once that is frozen. -/
theorem addToRegistry (i : RegistryId) {u : UnitId} (hu : u < g.units.length) :
    Proceeds g (g.addToRegistry i u).1 := by
  intro hg
  have hq : Proceeds (g.freezeUnit u) (g.named u) := qualifiedNames (g.unit u).types _
  have hfrozen : ((g.named u).unit u).frozen = true := by
    rw [(hq (freezeUnit g u hg).1).2.unit u (frozen_freezeUnit hu), frozen_freezeUnit hu]
  have ht : Proceeds (g.named u)
      ((g.named u).takeUp i u (g.unit u).packageName (g.namedTypes u)).1 := by
    have heq := takeUp_fst_eq (g.named u) i u (g.unit u).packageName (g.namedTypes u)
    refine of_objects_eq (by rw [heq]) (by rw [heq]) (fun r v hv ↦ ?_) fun p hp ↦ .inl ?_
    · rw [units_takeUp] at hv
      split at hv
      next =>
        rcases List.mem_append.1 hv with hv | hv
        · exact .inl hv
        · rw [List.mem_singleton.1 hv]
          exact .inr hfrozen
      next => exact .inl hv
    · rw [heq] at hp
      exact hp
  rw [addToRegistry_eq]
  exact ((freezeUnit g u).trans (hq.trans ht)) hg

end Proceeds

end Graph

/-! ## The text of what is frozen -/

/-- Two forms with the same content differ at most in what a type refers to. -/
theorem Form.of_content_eq {f f' : Form} (h : f'.content = f.content) :
    f' = f ∨ ∃ head fs ms u n u' n', f = .type head fs ms u n ∧ f' = .type head fs ms u' n' := by
  cases f with
  | type head fs ms u n =>
    cases f' with
    | type head' fs' ms' u' n' =>
      obtain ⟨rfl, rfl, rfl, -, -⟩ := Form.type.inj h
      exact .inr ⟨_, _, _, _, _, _, _, rfl, rfl⟩
    | _ => cases h
  | _ =>
    cases f' with
    | type => cases h
    | _ => exact .inl h

namespace Graph

variable {g g' : Graph} {e : EntityId}

theorem parameter?_eq (g : Graph) (e : EntityId) :
    g.parameter? e = match (g.entity e).form with
      | .parameter type varargs => some { (g.entity e).header with type, varargs }
      | _ => none := by
  rw [parameter?]
  obtain ⟨h, f, -, -⟩ := g.entity e
  cases f <;> rfl

theorem field?_eq (g : Graph) (e : EntityId) :
    g.field? e = match (g.entity e).form with
      | .field type initializer => some { (g.entity e).header with type, initializer }
      | _ => none := by
  rw [field?]
  obtain ⟨h, f, -, -⟩ := g.entity e
  cases f <;> rfl

theorem method?_eq (g : Graph) (e : EntityId) :
    g.method? e = match (g.entity e).form with
      | .method head ps =>
        some { (g.entity e).header, head with parameters := ps.filterMap g.parameter? }
      | _ => none := by
  rw [method?]
  obtain ⟨h, f, -, -⟩ := g.entity e
  cases f <;> rfl

theorem type?_eq (g : Graph) (e : EntityId) :
    g.type? e = match (g.entity e).form with
      | .type head fs ms _ _ =>
        some { (g.entity e).header, head with
          fields := fs.filterMap g.field?, methods := ms.filterMap g.method? }
      | _ => none := by
  rw [type?]
  obtain ⟨h, f, -, -⟩ := g.entity e
  cases f <;> rfl

namespace Keeps

theorem parameter? (h : Keeps g g') (he : (g.entity e).frozen = true) :
    g'.parameter? e = g.parameter? e := by
  rw [parameter?_eq, parameter?_eq, h.header e he]
  obtain hf | ⟨_, _, _, _, _, _, _, hf, hf'⟩ := Form.of_content_eq (h.content e he)
  · rw [hf]
  · rw [hf, hf']

theorem field? (h : Keeps g g') (he : (g.entity e).frozen = true) :
    g'.field? e = g.field? e := by
  rw [field?_eq, field?_eq, h.header e he]
  obtain hf | ⟨_, _, _, _, _, _, _, hf, hf'⟩ := Form.of_content_eq (h.content e he)
  · rw [hf]
  · rw [hf, hf']

theorem method? (h : Keeps g g') (hg : g.FrozenBelow) (he : (g.entity e).frozen = true) :
    g'.method? e = g.method? e := by
  have hm := hg.members e he
  rw [method?_eq, method?_eq, h.header e he]
  obtain hf | ⟨_, _, _, _, _, _, _, hf, hf'⟩ := Form.of_content_eq (h.content e he)
  · rw [hf]
    cases hf : (g.entity e).form with
    | method head ps =>
      rw [hf] at hm
      have hps : ps.filterMap g'.parameter? = ps.filterMap g.parameter? :=
        List.filterMap_congr fun p hp ↦ h.parameter? (hm p hp)
      simp only [hps]
    | _ => rfl
  · rw [hf, hf']

theorem type? (h : Keeps g g') (hg : g.FrozenBelow) (he : (g.entity e).frozen = true) :
    g'.type? e = g.type? e := by
  have hm := hg.members e he
  have hmembers (fs ms : List EntityId) (hfs : (g.entity e).form.members = fs ++ ms) :
      fs.filterMap g'.field? = fs.filterMap g.field? ∧
        ms.filterMap g'.method? = ms.filterMap g.method? := by
    rw [hfs] at hm
    exact ⟨List.filterMap_congr fun f hf ↦ h.field? (hm f (List.mem_append_left ms hf)),
      List.filterMap_congr fun m hm' ↦ h.method? hg (hm m (List.mem_append_right fs hm'))⟩
  rw [type?_eq, type?_eq, h.header e he]
  obtain hf | ⟨_, _, _, _, _, _, _, hf, hf'⟩ := Form.of_content_eq (h.content e he)
  · rw [hf]
    cases hf : (g.entity e).form with
    | type head fs ms u n =>
      obtain ⟨hfs, hms⟩ := hmembers fs ms (by rw [hf]; rfl)
      simp only [hfs, hms]
    | _ => rfl
  · rw [hf, hf']
    obtain ⟨hfs, hms⟩ := hmembers _ _ (by rw [hf]; rfl)
    simp only [hfs, hms]

/-- What is frozen keeps its text. -/
theorem writeEntity? (h : Keeps g g') (hg : g.FrozenBelow) (he : (g.entity e).frozen = true) :
    g'.writeEntity? e = g.writeEntity? e := by
  rw [Graph.writeEntity?, Graph.writeEntity?, h.parameter? he, h.field? he, h.method? hg he,
    h.type? hg he]
  obtain hf | ⟨_, _, _, _, _, _, _, hf, hf'⟩ := Form.of_content_eq (h.content e he)
  · rw [hf]
  · rw [hf, hf']

theorem unitValue (h : Keeps g g') (hg : g.FrozenBelow) {u : UnitId}
    (hu : (g.unit u).frozen = true) : g'.unitValue u = g.unitValue u := by
  have ht : (g.unit u).types.filterMap g'.type? = (g.unit u).types.filterMap g.type? :=
    List.filterMap_congr fun t ht ↦ h.type? hg (hg.types u hu t ht)
  rw [Graph.unitValue, Graph.unitValue, h.unit u hu]
  simp only [ht]

end Keeps

end Graph

end JavaOutline
