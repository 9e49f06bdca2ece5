import JavaOutline.Proofs.Graph.Owners

/-! # Changes that leave the forms of frozen entities alone

`Graph.Keeps` lets a frozen type note the name of its package anew.  Most changes do not even do
that: they leave the whole form of every frozen entity as it is, and all registries (`Graph.Rests`).
Only the look-up of a package and the registering of a unit do more. -/

namespace JavaOutline.Graph

variable {g g' g'' : Graph}

/-- The forms of what is frozen, and the registries, have stayed as they were. -/
structure Rests (g g' : Graph) : Prop where
  frozen : ∀ e, (g.entity e).frozen = true → (g'.entity e).frozen = true
  form : ∀ e, (g.entity e).frozen = true → (g'.entity e).form = (g.entity e).form
  registry : ∀ r, g'.registry r = g.registry r

namespace Rests

theorem refl (g : Graph) : Rests g g := ⟨fun _ ↦ id, fun _ _ ↦ rfl, fun _ ↦ rfl⟩

theorem trans (h : Rests g g') (h' : Rests g' g'') : Rests g g'' where
  frozen e he := h'.frozen e (h.frozen e he)
  form e he := (h'.form e (h.frozen e he)).trans (h.form e he)
  registry r := (h'.registry r).trans (h.registry r)

/-! ## Changes of one object -/

/-- A change that concerns neither entities nor registries. -/
theorem of_eq (he : g'.entities = g.entities) (hr : ∀ r, g'.registry r = g.registry r) :
    Rests g g' := by
  have hentity : g'.entity = g.entity := by funext e; rw [entity, entity, he]
  refine ⟨fun e ↦ ?_, fun e _ ↦ ?_, hr⟩
  · rw [hentity]
    exact id
  · rw [hentity]

/-- A change of an entity that is not frozen, or that keeps its form. -/
theorem modifyEntity (e : EntityId) {f : Entity → Entity}
    (hf : (g.entity e).frozen = true →
      (f (g.entity e)).frozen = true ∧ (f (g.entity e)).form = (g.entity e).form) :
    Rests g (g.modifyEntity e f) := by
  have hd (d : EntityId) : (g.modifyEntity e f).entity d = g.entity d ∨
      d = e ∧ (g.modifyEntity e f).entity d = f (g.entity d) := getD_modify g.entities e f d default
  refine ⟨fun d hdf ↦ ?_, fun d hdf ↦ ?_, fun _ ↦ rfl⟩
  · obtain h | ⟨rfl, h⟩ := hd d
    · rwa [h]
    · rw [h]
      exact (hf hdf).1
  · obtain h | ⟨rfl, h⟩ := hd d
    · rw [h]
    · rw [h]
      exact (hf hdf).2

theorem modifyHeader (g : Graph) (e : EntityId) (f : Header → Header) :
    Rests g (g.modifyHeader e f) := modifyEntity e fun h ↦ ⟨h, rfl⟩

theorem modifyForm {e : EntityId} (he : (g.entity e).frozen = false) (f : Form → Form) :
    Rests g (g.modifyForm e f) := modifyEntity e fun h ↦ absurd h (by simp [he])

theorem addEntity (g : Graph) (o : Entity) : Rests g (g.addEntity o).2 := by
  have hold {e : EntityId} (he : (g.entity e).frozen = true) :
      (g.addEntity o).2.entity e = g.entity e := entity_addEntity_of_lt o (lt_of_frozen he)
  refine ⟨fun e he ↦ ?_, fun e he ↦ ?_, fun _ ↦ rfl⟩
  · rwa [hold he]
  · rw [hold he]

/-! ## Setters and owners -/

theorem setModifiers {e : EntityId} {ms : List String} (h : g.setModifiers e ms = .ok g') :
    Rests g g' := by
  obtain ⟨-, h⟩ := of_checkMutable h
  exact Except.ok.inj h ▸ modifyHeader g e _

theorem setComment {e : EntityId} {c : Option String} (h : g.setComment e c = .ok g') :
    Rests g g' := by
  obtain ⟨-, h⟩ := of_checkMutable h
  exact Except.ok.inj h ▸ modifyHeader g e _

theorem setTags {e : EntityId} {ts : List Tag} (h : g.setTags e ts = .ok g') : Rests g g' := by
  obtain ⟨-, h⟩ := of_checkMutable h
  exact Except.ok.inj h ▸ modifyHeader g e _

theorem setParent {e : EntityId} {p : Option EntityId} (h : g.setParent e p = .ok g') :
    Rests g g' := by
  obtain ⟨-, h⟩ := of_checkMutable h
  exact Except.ok.inj h ▸ modifyEntity e fun he ↦ ⟨he, rfl⟩

theorem setParentUnit {e : EntityId} {u : Option UnitId} (h : g.setParentUnit e u = .ok g') :
    Rests g g' := by
  obtain ⟨hf, head, fs, ms, v, noted, name, -, rfl⟩ := of_setParentUnit_eq_ok h
  exact modifyEntity e fun he ↦ absurd he (by simp [hf])

/-- The owner whose form changes is not frozen. -/
theorem adopts {o e : EntityId} (h : Adopts g o e g') : Rests g g' where
  frozen d hd := by rwa [h.frozen]
  form d hd := h.form d fun hdo ↦ by
    rw [hdo, h.owner] at hd
    cases hd
  registry r := by rw [h.rest]; rfl

theorem addType {u : UnitId} {t : EntityId} (h : g.addType u t = .ok g') : Rests g g' := by
  rw [Graph.addType] at h
  split at h
  next => cases h
  next =>
    obtain ⟨g₁, hs, h⟩ := bind_eq_ok_iff.1 h
    cases h
    exact (setParentUnit hs).trans (of_eq rfl fun _ ↦ rfl)

theorem newMethod_addAll (m : EntityId) (ps : List EntityId) (g : Graph) :
    Rests g (newMethod.addAll m ps g).1 := by
  induction ps generalizing g with
  | nil => exact refl g
  | cons p ps ih =>
    rw [newMethod.addAll]
    cases h : g.addParameter m p with
    | error f => exact refl g
    | ok g₁ => exact (adopts (adopts_of_addParameter h)).trans (ih g₁)

theorem newMethod (g : Graph) (h : Header) (head : MethodHead) (ps : List EntityId) :
    Rests g (g.newMethod h head ps).1 := (addEntity g _).trans (newMethod_addAll _ ps _)

/-! ## Freezing -/

theorem freeze (g : Graph) (e : EntityId) : Rests g (g.freeze e) where
  frozen _ hd := frozen_freeze_iff.2 (.inl hd)
  form d _ := form_freeze g e d
  registry := congrFun (registry_freeze g e)

theorem freezeUnit (g : Graph) (u : UnitId) : Rests g (g.freezeUnit u) where
  frozen d hd := (entity_foldl_freeze (g.unit u).types g d).2 (.inl hd)
  form d _ := (entity_foldl_freeze (g.unit u).types g d).1
  registry r := by rw [freezeUnit_eq]; rfl

end Rests

/-! ## The text of an entity -/

/-- The text of an entity is made of headers and forms alone. -/
theorem writeEntity?_congr (hh : ∀ e, (g'.entity e).header = (g.entity e).header)
    (hf : ∀ e, (g'.entity e).form = (g.entity e).form) : g'.writeEntity? = g.writeEntity? := by
  have hp : g'.parameter? = g.parameter? := by
    funext e
    rw [parameter?_eq, parameter?_eq, hh, hf]
  have hfield : g'.field? = g.field? := by
    funext e
    rw [field?_eq, field?_eq, hh, hf]
  have hm : g'.method? = g.method? := by
    funext e
    rw [method?_eq, method?_eq, hh, hf, hp]
  have ht : g'.type? = g.type? := by
    funext e
    rw [type?_eq, type?_eq, hh, hf, hfield, hm]
  funext e
  rw [writeEntity?, writeEntity?, hf, hp, hfield, hm, ht]

theorem header_freezeUnit (g : Graph) (u : UnitId) (e : EntityId) :
    ((g.freezeUnit u).entity e).header = (g.entity e).header := by
  have hheader (ts : List EntityId) (g : Graph) :
      ((ts.foldl Graph.freeze g).entity e).header = (g.entity e).header := by
    induction ts generalizing g with
    | nil => rfl
    | cons t ts ih => exact (ih _).trans (header_freeze g t e)
  exact hheader (g.unit u).types g

end JavaOutline.Graph
