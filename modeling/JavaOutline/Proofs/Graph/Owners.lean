import JavaOutline.Proofs.Graph.References

/-! # Owners and what they take up

Putting an entity among the members of another, or a type into a unit, is described once for all
owners (`Graph.Adopts`, `Graph.Houses`): when it is possible, what it changes and what it does not.
A registry lists no types but those that come with a unit.  None of these operations mentions what
is not there: they keep a graph closed. -/

namespace JavaOutline.Graph

variable {g g' : Graph}

/-! ## Owners -/

/-- An entity becomes the last of its kind among the members of another, which becomes its parent.
Neither of them is frozen, and nothing else changes. -/
structure Adopts (g : Graph) (o e : EntityId) (g' : Graph) : Prop where
  takes : (g.entity o).form.kind.takes (g.entity e).form.kind = true
  owner : (g.entity o).frozen = false
  member : (g.entity e).frozen = false
  rest : g' = { g with entities := g'.entities }
  length : g'.entities.length = g.entities.length
  header : ∀ d, (g'.entity d).header = (g.entity d).header
  frozen : ∀ d, (g'.entity d).frozen = (g.entity d).frozen
  parent : ∀ d, (g'.entity d).parent = if d = e then some o else (g.entity d).parent
  form : ∀ d, d ≠ o → (g'.entity d).form = (g.entity d).form
  kind : ∀ d, (g'.entity d).form.kind = (g.entity d).form.kind
  unit : ∀ d, (g'.entity d).form.unit? = (g.entity d).form.unit?
  members : (g'.entity o).form.members.Perm (e :: (g.entity o).form.members)

theorem ne_of_takes {o e : EntityId}
    (h : (g.entity o).form.kind.takes (g.entity e).form.kind = true) : o ≠ e := by
  rintro rfl
  cases hf : (g.entity o).form.kind <;> rw [hf] at h <;> cases h

theorem owner_lt_of_takes {o e : EntityId}
    (h : (g.entity o).form.kind.takes (g.entity e).form.kind = true) : o < g.entities.length := by
  apply lt_of_kind_ne_plain
  intro hf
  rw [hf] at h
  cases h

/-- What the two changes of an adoption make of each entity. -/
theorem entity_adopted {o e : EntityId} (append : Form → Form) (hne : o ≠ e)
    (ho : o < g.entities.length) (he : e < g.entities.length) (d : EntityId) :
    ((g.modifyEntity e fun x ↦ { x with parent := some o }).modifyForm o append).entity d =
      if d = e then { g.entity d with parent := some o }
      else if d = o then { g.entity d with form := append (g.entity d).form }
      else g.entity d := by
  rw [Graph.modifyForm, entity_modifyEntity, entity_modifyEntity]
  by_cases hde : d = e
  · subst hde
    simp [hne.symm, he]
  · by_cases hdo : d = o
    · subst hdo
      simp [hde, ho, Graph.modifyEntity]
    · simp [hde, hdo]

theorem adopts_of_adopt {o e : EntityId} {append : Form → Form}
    (ht : (g.entity o).form.kind.takes (g.entity e).form.kind = true)
    (ho : (g.entity o).frozen = false)
    (hk : (append (g.entity o).form).kind = (g.entity o).form.kind)
    (hu : (append (g.entity o).form).unit? = (g.entity o).form.unit?)
    (hm : (append (g.entity o).form).members.Perm (e :: (g.entity o).form.members))
    (h : g.adopt o e append = .ok g') : Adopts g o e g' := by
  have hlen := entities_length_of_adopt h
  obtain ⟨g₁, hp, h⟩ := bind_eq_ok_iff.1 h
  obtain ⟨he, hp⟩ := of_checkMutable hp
  cases hp
  cases h
  have hne := ne_of_takes ht
  have hd := entity_adopted append hne (owner_lt_of_takes ht) (lt_of_takes ht)
  refine ⟨ht, ho, he, rfl, hlen, fun d ↦ ?_, fun d ↦ ?_, fun d ↦ ?_, fun d hdo ↦ ?_, fun d ↦ ?_,
    fun d ↦ ?_, ?_⟩
  · rw [hd]
    split <;> [rfl; split <;> rfl]
  · rw [hd]
    split <;> [rfl; split <;> rfl]
  · rw [hd]
    split <;> [rfl; split <;> rfl]
  · rw [hd, if_neg hdo]
    split <;> rfl
  · rw [hd]
    split
    · rfl
    · split
      next hdo => rw [hdo, hk]
      next => rfl
  · rw [hd]
    split
    · rfl
    · split
      next hdo => rw [hdo, hu]
      next => rfl
  · rw [hd, if_neg hne, if_pos rfl]
    exact hm

theorem adopts_of_addParameter {m p : EntityId} (h : g.addParameter m p = .ok g') :
    Adopts g m p g' := by
  rw [addParameter] at h
  split at h
  next head ps hm =>
    obtain ⟨hf, h⟩ := of_checkMutable h
    split at h
    next hp =>
      refine adopts_of_adopt (by rw [hm, hp]; rfl) hf (by rw [hm]; rfl) (by rw [hm]; rfl) ?_ h
      rw [hm]
      exact List.perm_append_comm
    next => cases h
  next => cases h

theorem adopts_of_addField {t f : EntityId} (h : g.addField t f = .ok g') : Adopts g t f g' := by
  rw [addField] at h
  split at h
  next head fs ms u n ht =>
    obtain ⟨hf, h⟩ := of_checkMutable h
    split at h
    next hfield =>
      refine adopts_of_adopt (by rw [ht, hfield]; rfl) hf (by rw [ht]; rfl) (by rw [ht]; rfl) ?_ h
      rw [ht]
      exact List.perm_append_comm.append_right ms
    next => cases h
  next => cases h

theorem adopts_of_addMethod {t m : EntityId} (h : g.addMethod t m = .ok g') :
    Adopts g t m g' := by
  rw [addMethod] at h
  split at h
  next head fs ms u n ht =>
    obtain ⟨hf, h⟩ := of_checkMutable h
    split at h
    next hmethod =>
      refine adopts_of_adopt (by rw [ht, hmethod]; rfl) hf (by rw [ht]; rfl) (by rw [ht]; rfl) ?_ h
      rw [ht]
      change (fs ++ (ms ++ [m])).Perm (m :: (fs ++ ms))
      rw [← List.append_assoc]
      exact List.perm_append_comm
    next => cases h
  next => cases h

/-- A method that is not frozen takes every parameter that is not frozen either. -/
theorem exists_addParameter {m p : EntityId} (hm : (g.entity m).form.kind = .method)
    (hmf : (g.entity m).frozen = false) (hp : (g.entity p).form.kind = .parameter)
    (hpf : (g.entity p).frozen = false) : ∃ g', g.addParameter m p = .ok g' := by
  rw [addParameter]
  cases hform : (g.entity m).form with
  | method head ps =>
    cases hpform : (g.entity p).form with
    | parameter type varargs =>
      simp only [checkMutable_eq, hmf, adopt, setParent, hpf]
      exact ⟨_, rfl⟩
    | _ => rw [hpform] at hp; cases hp
  | _ => rw [hform] at hm; cases hm

theorem Adopts.closed {o e : EntityId} (h : Adopts g o e g') (hg : g.Closed) : g'.Closed := by
  have holt : o < g.entities.length := by
    apply lt_of_kind_ne_plain
    rcases Form.kind_eq_of_takes h.takes with hk | hk <;> rw [hk] <;> exact nofun
  refine hg.of_entities h.rest h.length fun d ↦ ⟨fun c hc ↦ ?_, fun p hp ↦ ?_, fun u hu ↦ ?_⟩
  · by_cases hd : d = o
    · subst hd
      rcases List.mem_cons.1 (h.members.mem_iff.1 hc) with rfl | hc
      · exact lt_of_takes h.takes
      · exact (hg.entities d).members c hc
    · rw [h.form d hd] at hc
      exact (hg.entities d).members c hc
  · rw [h.parent] at hp
    split at hp
    · cases hp
      exact holt
    · exact (hg.entities d).parent p hp
  · rw [h.unit] at hu
    exact (hg.entities d).unit u hu

/-! ## One after the other -/

/-- Entities are adopted one after the other. -/
inductive AdoptsAll (o : EntityId) : Graph → List EntityId → Graph → Prop
  | nil (g : Graph) : AdoptsAll o g [] g
  | cons {g g₁ g' : Graph} {e : EntityId} {es : List EntityId} (h : Adopts g o e g₁)
      (hs : AdoptsAll o g₁ es g') : AdoptsAll o g (e :: es) g'

namespace AdoptsAll

variable {o : EntityId} {es : List EntityId}

theorem closed (h : AdoptsAll o g es g') (hg : g.Closed) : g'.Closed := by
  induction h with
  | nil => exact hg
  | cons h _ ih => exact ih (h.closed hg)

theorem rest (h : AdoptsAll o g es g') : g' = { g with entities := g'.entities } := by
  induction h with
  | nil => rfl
  | cons h _ ih =>
    rw [h.rest] at ih
    exact ih

theorem length (h : AdoptsAll o g es g') : g'.entities.length = g.entities.length := by
  induction h with
  | nil => rfl
  | cons h _ ih => exact ih.trans h.length

theorem header (h : AdoptsAll o g es g') (d : EntityId) :
    (g'.entity d).header = (g.entity d).header := by
  induction h with
  | nil => rfl
  | cons h _ ih => exact ih.trans (h.header d)

theorem frozen (h : AdoptsAll o g es g') (d : EntityId) :
    (g'.entity d).frozen = (g.entity d).frozen := by
  induction h with
  | nil => rfl
  | cons h _ ih => exact ih.trans (h.frozen d)

theorem form (h : AdoptsAll o g es g') {d : EntityId} (hd : d ≠ o) :
    (g'.entity d).form = (g.entity d).form := by
  induction h with
  | nil => rfl
  | cons h _ ih => exact ih.trans (h.form d hd)

theorem parent (h : AdoptsAll o g es g') (d : EntityId) :
    (g'.entity d).parent = if d ∈ es then some o else (g.entity d).parent := by
  induction h with
  | nil => rw [if_neg List.not_mem_nil]
  | @cons _ _ _ e es h _ ih =>
    rw [ih, h.parent]
    by_cases hes : d ∈ es
    · rw [if_pos hes, if_pos (List.mem_cons_of_mem e hes)]
    · by_cases hde : d = e <;> simp [hes, hde]

theorem mem_members (h : AdoptsAll o g es g') {c d : EntityId}
    (hc : c ∈ (g'.entity d).form.members) : c ∈ (g.entity d).form.members ∨ c ∈ es := by
  induction h with
  | nil => exact .inl hc
  | @cons g g₁ _ e es h _ ih =>
    rcases ih hc with hc | hc
    · by_cases hd : d = o
      · subst hd
        rcases List.mem_cons.1 (h.members.mem_iff.1 hc) with rfl | hc
        · exact .inr List.mem_cons_self
        · exact .inl hc
      · rw [h.form d hd] at hc
        exact .inl hc
    · exact .inr (List.mem_cons_of_mem e hc)

end AdoptsAll

/-- Whether an entity is a parameter that is not frozen. -/
def isFreeParameter (g : Graph) (p : EntityId) : Bool :=
  (g.entity p).form.kind = .parameter && !(g.entity p).frozen

theorem Adopts.isFreeParameter {o e : EntityId} (h : Adopts g o e g') :
    g'.isFreeParameter = g.isFreeParameter := by
  funext p
  rw [Graph.isFreeParameter, Graph.isFreeParameter, h.kind, h.frozen]

/-- A method that is not frozen takes up a parameter exactly if that is not frozen either. -/
theorem addParameter_eq_ok_iff {m p : EntityId} (hm : (g.entity m).form.kind = .method)
    (hmf : (g.entity m).frozen = false) :
    (∃ g', g.addParameter m p = .ok g') ↔ g.isFreeParameter p = true := by
  constructor
  · rintro ⟨g', h⟩
    have h := adopts_of_addParameter h
    have hk := h.takes
    rw [hm] at hk
    rw [isFreeParameter, h.member]
    cases hp : (g.entity p).form.kind <;> rw [hp] at hk <;> simp [Form.Kind.takes] at hk ⊢
  · intro h
    obtain ⟨hp, hpf⟩ : (g.entity p).form.kind = .parameter ∧ (g.entity p).frozen = false := by
      simpa [isFreeParameter] using h
    exact exists_addParameter hm hmf hp hpf

/-- A new method takes up the parameters in front of the first one that refuses. -/
theorem adoptsAll_addAll {m : EntityId} (ps : List EntityId) (hm : (g.entity m).form.kind = .method)
    (hmf : (g.entity m).frozen = false) :
    AdoptsAll m g (ps.takeWhile g.isFreeParameter) (newMethod.addAll m ps g).1 ∧
      ∀ n, (newMethod.addAll m ps g).2 = .ok n → n = m := by
  induction ps generalizing g with
  | nil => exact ⟨.nil g, fun n hn ↦ (Except.ok.inj hn).symm⟩
  | cons p ps ih =>
    have hiff := addParameter_eq_ok_iff (p := p) hm hmf
    rw [newMethod.addAll]
    cases h : g.addParameter m p with
    | error f =>
      have hp : ¬ g.isFreeParameter p = true := by
        intro hp
        obtain ⟨g', hok⟩ := hiff.2 hp
        rw [h] at hok
        cases hok
      rw [List.takeWhile_cons_of_neg hp]
      refine ⟨.nil g, fun n hn ↦ ?_⟩
      cases hn
    | ok g₁ =>
      have ha := adopts_of_addParameter h
      obtain ⟨hall, hok⟩ := ih (g := g₁) (by rw [ha.kind, hm]) (by rw [ha.frozen, hmf])
      rw [List.takeWhile_cons_of_pos (hiff.1 ⟨g₁, h⟩)]
      rw [ha.isFreeParameter] at hall
      exact ⟨.cons ha hall, hok⟩

/-- The graph in which a method has just been made, without parameters so far. -/
def withMethod (g : Graph) (h : Header) (head : MethodHead) : Graph :=
  (g.addEntity { header := h, form := .method head [] }).2

theorem entity_withMethod_of_lt {e : EntityId} (h : Header) (head : MethodHead)
    (he : e < g.entities.length) : (g.withMethod h head).entity e = g.entity e :=
  entity_addEntity_of_lt _ he

theorem entity_withMethod_self (g : Graph) (h : Header) (head : MethodHead) :
    (g.withMethod h head).entity g.entities.length = { header := h, form := .method head [] } := by
  simp [withMethod, entity, addEntity]

theorem sameLinks_withMethod (g : Graph) (h : Header) (head : MethodHead) :
    SameLinks g (g.withMethod h head) := .addEntity rfl rfl rfl

/-- A method that is being made is no parameter of itself. -/
theorem takeWhile_withMethod (h : Header) (head : MethodHead) {ps : List EntityId}
    (hps : ∀ p ∈ ps, p < g.entities.length) :
    ps.takeWhile (g.withMethod h head).isFreeParameter = ps.takeWhile g.isFreeParameter := by
  induction ps with
  | nil => rfl
  | cons p ps ih =>
    obtain ⟨hp, hps⟩ := List.forall_mem_cons.1 hps
    have hfree : (g.withMethod h head).isFreeParameter p = g.isFreeParameter p := by
      rw [isFreeParameter, entity_withMethod_of_lt h head hp, isFreeParameter]
    rw [List.takeWhile_cons, List.takeWhile_cons, hfree, ih hps]

/-- Making a method: first without parameters, then each parameter in turn until one refuses. -/
theorem adoptsAll_newMethod (h : Header) (head : MethodHead) {ps : List EntityId}
    (hps : ∀ p ∈ ps, p < g.entities.length) :
    AdoptsAll g.entities.length (g.withMethod h head) (ps.takeWhile g.isFreeParameter)
        (g.newMethod h head ps).1 ∧
      ∀ n, (g.newMethod h head ps).2 = .ok n → n = g.entities.length := by
  have hm := entity_withMethod_self g h head
  rw [← takeWhile_withMethod h head hps]
  exact adoptsAll_addAll ps (by rw [hm]; rfl) (by rw [hm])

/-! ## Units -/

/-- A type comes to stand in a unit, behind the types that are there.  Neither of them is frozen,
and nothing else changes but the name that the type notes. -/
structure Houses (g : Graph) (u : UnitId) (t : EntityId) (g' : Graph) : Prop where
  type : (g.entity t).form.kind = .type
  owner : (g.unit u).frozen = false
  member : (g.entity t).frozen = false
  rest : g' = { g with entities := g'.entities, units := g'.units }
  length : g'.entities.length = g.entities.length
  units : g'.units.length = g.units.length
  header : ∀ d, (g'.entity d).header = (g.entity d).header
  frozen : ∀ d, (g'.entity d).frozen = (g.entity d).frozen
  parent : ∀ d, (g'.entity d).parent = (g.entity d).parent
  members : ∀ d, (g'.entity d).form.members = (g.entity d).form.members
  kind : ∀ d, (g'.entity d).form.kind = (g.entity d).form.kind
  unit : ∀ d, (g'.entity d).form.unit? = if d = t then some u else (g.entity d).form.unit?
  types : ∀ v, (g'.unit v).types =
    if v = u ∧ v < g.units.length then (g.unit v).types ++ [t] else (g.unit v).types

theorem unit_modifyUnit (g : Graph) (u : UnitId) (f : UnitObject → UnitObject) (v : UnitId) :
    (g.modifyUnit u f).unit v =
      if v = u ∧ v < g.units.length then f (g.unit v) else g.unit v :=
  getD_modify_eq g.units u f v default

/-- What a change makes of an entity counts only for the entity as it is. -/
theorem modifyEntity_congr {e : EntityId} {f f' : Entity → Entity}
    (h : f (g.entity e) = f' (g.entity e)) : g.modifyEntity e f = g.modifyEntity e f' := by
  have hl : g.entities.modify e f = g.entities.modify e f' := by
    apply List.ext_getElem?
    intro d
    rw [List.getElem?_modify, List.getElem?_modify]
    by_cases hd : e = d
    · subst hd
      rw [entity, List.getD_eq_getElem?_getD] at h
      cases hd : g.entities[e]? with
      | none => rfl
      | some o =>
        rw [hd] at h
        simpa using h
    · simp [hd]
  rw [modifyEntity, modifyEntity, hl]

/-- Setting the unit of a type: it must not be frozen, and changes in what it refers to alone. -/
theorem of_setParentUnit_eq_ok {t : EntityId} {u : Option UnitId}
    (h : g.setParentUnit t u = .ok g') :
    (g.entity t).frozen = false ∧ ∃ head fs ms v noted name,
      (g.entity t).form = .type head fs ms v noted ∧
        g' = g.modifyEntity t fun o ↦ { o with form := .type head fs ms u name } := by
  rw [setParentUnit.eq_def] at h
  split at h
  next head fs ms v noted ht =>
    obtain ⟨hf, h⟩ := of_checkMutable h
    refine ⟨hf, head, fs, ms, v, noted, u.elim "" fun u ↦ (g.unit u).packageName, ht, ?_⟩
    rw [← Except.ok.inj h]
    apply modifyEntity_congr
    rw [ht]
    cases u <;> rfl
  next => cases h

/-- What standing in a unit makes of each entity. -/
theorem entity_housed {t : EntityId} (form : Form) (ht : t < g.entities.length) (d : EntityId) :
    (g.modifyEntity t fun o ↦ { o with form := form }).entity d =
      if d = t then { g.entity d with form := form } else g.entity d := by
  rw [entity_modifyEntity]
  by_cases hdt : d = t
  · subst hdt
    simp [ht]
  · simp [hdt]

theorem houses_of_addType {u : UnitId} {t : EntityId} (h : g.addType u t = .ok g') :
    Houses g u t g' := by
  rw [addType] at h
  split at h
  next => cases h
  next hf =>
    obtain ⟨g₁, hs, h⟩ := bind_eq_ok_iff.1 h
    cases h
    obtain ⟨htf, head, fs, ms, v, noted, name, ht, rfl⟩ := of_setParentUnit_eq_ok hs
    have htlt : t < g.entities.length := lt_of_kind_eq_type (by rw [ht]; rfl)
    have hd := entity_housed (.type head fs ms (some u) name) htlt
    refine ⟨by rw [ht]; rfl, by simpa using hf, htf, rfl, List.length_modify ..,
      List.length_modify .., fun d ↦ ?_, fun d ↦ ?_, fun d ↦ ?_, fun d ↦ ?_, fun d ↦ ?_,
      fun d ↦ ?_, fun v ↦ ?_⟩
    · refine (congrArg (·.header) (hd d)).trans ?_
      split <;> rfl
    · refine (congrArg (·.frozen) (hd d)).trans ?_
      split <;> rfl
    · refine (congrArg (·.parent) (hd d)).trans ?_
      split <;> rfl
    · refine (congrArg (·.form.members) (hd d)).trans ?_
      split
      next hdt => rw [hdt, ht]; rfl
      next => rfl
    · refine (congrArg (·.form.kind) (hd d)).trans ?_
      split
      next hdt => rw [hdt, ht]; rfl
      next => rfl
    · refine (congrArg (·.form.unit?) (hd d)).trans ?_
      split <;> rfl
    · rw [unit_modifyUnit]
      change (if v = u ∧ v < g.units.length then _ else g.unit v).types = _
      split <;> rfl

theorem Houses.closed {u : UnitId} {t : EntityId} (h : Houses g u t g') (hu : u < g.units.length)
    (hg : g.Closed) : g'.Closed := by
  have htlt : t < g.entities.length := lt_of_kind_eq_type h.type
  have hrest : g' = { g with entities := g'.entities, units := g'.units } := h.rest
  have hclosed : Within g.entities.length g.units.length
      { g with entities := g'.entities, units := g'.units } := by
    refine { hg with entities := fun d ↦ ⟨fun c hc ↦ ?_, fun p hp ↦ ?_, fun v hv ↦ ?_⟩,
                     types := fun v c hc ↦ ?_
                     apart := hg.apart.congr rfl rfl }
    · exact (hg.entities d).members c (h.members d ▸ hc)
    · exact (hg.entities d).parent p (h.parent d ▸ hp)
    · replace hv : v ∈ (g'.entity d).form.unit? := hv
      rw [h.unit] at hv
      split at hv
      · cases hv
        exact hu
      · exact (hg.entities d).unit v hv
    · replace hc : c ∈ (g'.unit v).types := hc
      rw [h.types] at hc
      split at hc
      · rcases List.mem_append.1 hc with hc | hc
        · exact hg.types v c hc
        · rw [List.mem_singleton.1 hc]
          exact htlt
      · exact hg.types v c hc
  rw [← hrest] at hclosed
  rwa [Closed, h.length, h.units]

/-! ## What registries list -/

theorem registryLists_addTypes {p : String} {ts : List (String × EntityId)}
    {r : Registry UnitId EntityId} {e : EntityId}
    (h : registryLists (Registry.addTypes p ts r).1 e = true) :
    registryLists r e = true ∨ ∃ t ∈ ts, t.2 = e := by
  induction ts generalizing r with
  | nil => exact .inl h
  | cons t ts ih =>
    rw [Registry.addTypes] at h
    split at h
    · refine (ih h).imp_right ?_
      rintro ⟨c, hc, hce⟩
      exact ⟨c, List.mem_cons_of_mem t hc, hce⟩
    · rcases ih h with h | ⟨c, hc, hce⟩
      · rw [registryLists_iff] at h ⊢
        rcases h with ⟨c, hc, hce⟩ | ⟨q, hq, heq⟩
        · rcases List.mem_append.1 hc with hc | hc
          · exact .inl (.inl ⟨c, hc, hce⟩)
          · cases List.mem_singleton.1 hc
            exact .inr ⟨t, List.mem_cons_self, hce⟩
        · obtain ⟨q, hq', rfl⟩ := List.mem_map.1 hq
          split at heq
          · rcases List.mem_append.1 heq with heq | heq
            · exact .inl (.inr ⟨q, hq', heq⟩)
            · exact .inr ⟨t, List.mem_cons_self, (List.mem_singleton.1 heq).symm⟩
          · exact .inl (.inr ⟨q, hq', heq⟩)
      · exact .inr ⟨c, List.mem_cons_of_mem t hc, hce⟩

/-- A registry that takes up a unit lists at most the types that come with it in addition. -/
theorem registryLists_register {r : Registry UnitId EntityId} {u : UnitId} {p : String}
    {ts : List (String × EntityId)} {e : EntityId}
    (h : registryLists (r.register u p ts).1 e = true) :
    registryLists r e = true ∨ ∃ t ∈ ts, t.2 = e := by
  refine (registryLists_addTypes h).imp_left fun h ↦ ?_
  rw [Registry.openPackage] at h
  split at h
  · exact h
  · rw [registryLists_iff] at h ⊢
    refine h.imp_right ?_
    rintro ⟨q, hq, heq⟩
    rcases List.mem_append.1 hq with hq | hq
    · exact ⟨q, hq, heq⟩
    · rw [List.mem_singleton.1 hq] at heq
      cases heq

theorem sameLinks_named (g : Graph) (u : UnitId) : SameLinks g (g.named u) :=
  (SameLinks.freezeUnit g u).trans (.qualifiedNames (g.unit u).types _)

/-- Registering changes no link but those of registries and packages. -/
theorem addToRegistry_fst_eq (g : Graph) (i : RegistryId) (u : UnitId) :
    (g.addToRegistry i u).1 =
      { g.named u with
        packages := (g.addToRegistry i u).1.packages
        registries := (g.addToRegistry i u).1.registries } := by
  rw [addToRegistry_eq]
  exact takeUp_fst_eq ..

theorem units_addToRegistry (g : Graph) (i : RegistryId) (u : UnitId) (j : RegistryId) :
    ((g.addToRegistry i u).1.registry j).units =
      if j = i ∧ j < g.registries.length then (g.registry j).units ++ [u]
      else (g.registry j).units := by
  have hlen : (g.named u).registries.length = g.registries.length := by rw [named_eq]
  rw [addToRegistry_eq, units_takeUp, registry_named, hlen]

/-- The registry that a unit is registered with lists at most the types of the unit in addition. -/
theorem registryLists_addToRegistry (h : g.Apart) {i j : RegistryId} {u : UnitId} {t : EntityId}
    (ht : registryLists ((g.addToRegistry i u).1.registry j) t = true) :
    registryLists (g.registry j) t = true ∨
      (j = i ∧ j < g.registries.length) ∧ t ∈ (g.unit u).types := by
  rw [registry_addToRegistry h] at ht
  split at ht
  next hj =>
    rw [hj.1]
    refine (registryLists_register ht).imp_right fun ⟨c, hc, hct⟩ ↦ ⟨⟨rfl, hj.1 ▸ hj.2⟩, ?_⟩
    obtain ⟨d, hd, rfl⟩ := List.mem_map.1 hc
    exact hct ▸ hd
  next => exact .inl ht

/-- Packages list at most the types of the unit in addition. -/
theorem mem_types_addToRegistry {i : RegistryId} {u : UnitId} {p : PackageId} {t : EntityId}
    (ht : t ∈ ((g.addToRegistry i u).1.package p).types) :
    t ∈ (g.package p).types ∨ t ∈ (g.unit u).types := by
  rw [addToRegistry_eq] at ht
  rcases mem_types_takeUp _ _ _ _ _ ht with ht | ⟨c, hc, hct⟩
  · rw [(sameLinks_named g u).packages] at ht
    exact .inl ht
  · obtain ⟨d, hd, rfl⟩ := List.mem_map.1 hc
    exact .inr (hct ▸ hd)

theorem apart_addToRegistry (h : g.Apart) (i : RegistryId) (u : UnitId) :
    (g.addToRegistry i u).1.Apart := by
  rw [addToRegistry_eq]
  exact (h.named u).takeUp ..

/-- Registering mentions the unit and its types, which are there. -/
theorem Closed.addToRegistry (hg : g.Closed) (i : RegistryId) {u : UnitId}
    (hu : u < g.units.length) : (g.addToRegistry i u).1.Closed := by
  have hsame := sameLinks_named g u
  have heq := addToRegistry_fst_eq g i u
  have hnamed := hsame.closed hg
  have htypes (t : EntityId) (ht : t ∈ (g.unit u).types) : t < (g.named u).entities.length :=
    Nat.lt_of_lt_of_le (hg.types u t ht) hsame.entities
  have hrest : Within (g.named u).entities.length (g.named u).units.length
      (g.addToRegistry i u).1 := by
    refine ⟨?_, ?_, fun p t ht ↦ ?_, fun j t ht ↦ ?_, fun j v hv ↦ ?_,
      apart_addToRegistry hg.apart i u, ?_, ?_⟩
    · rw [heq]
      exact hnamed.entities
    · rw [heq]
      exact hnamed.types
    · rcases mem_types_addToRegistry ht with ht | ht
      · exact Nat.lt_of_lt_of_le (hg.packages p t ht) hsame.entities
      · exact htypes t ht
    · rcases registryLists_addToRegistry hg.apart ht with ht | ⟨-, ht⟩
      · exact Nat.lt_of_lt_of_le (hg.registries j t ht) hsame.entities
      · exact htypes t ht
    · refine Nat.lt_of_lt_of_le ?_ hsame.units
      rw [units_addToRegistry] at hv
      split at hv
      · rcases List.mem_append.1 hv with hv | hv
        · exact hg.units j v hv
        · rwa [List.mem_singleton.1 hv]
      · exact hg.units j v hv
    · rw [heq]
      exact hnamed.handles
    · rw [heq]
      exact hnamed.distinct
  rw [Closed, heq]
  rw [heq] at hrest
  exact hrest

end JavaOutline.Graph
