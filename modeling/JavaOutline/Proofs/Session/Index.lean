import JavaOutline.Proofs.Graph.Resting
import JavaOutline.Proofs.Session.Queries

/-! # What a registry finds

A registry notes the name of a type when its unit is registered.  The name stays right, and so does
the package that lists the type, in every session that assigns no plain attribute of what is frozen,
leaves the lists of registered packages alone and registers units whose types refer to them
(`Session.run_index`).  The invariant is that a type
that is found refers to a unit of the registry and has the name of its package noted, so it does not
matter whether that unit stays live. -/

namespace JavaOutline

namespace Graph

variable {g g' g'' : Graph} {u : UnitId} {t : EntityId} {i : RegistryId}

/-! ## Types on file -/

/-- A type is listed by a unit, refers to it, and notes the name of its package. -/
structure Filed (g : Graph) (u : UnitId) (t : EntityId) : Prop where
  listed : t ∈ (g.unit u).types
  unit : (g.entity t).form.unit? = some u
  noted : (g.entity t).form.noted = (g.unit u).packageName

theorem parentUnit?_eq_of_unit? (h : (g.entity t).form.unit? = some u) :
    g.parentUnit? t = (some u).filter g.unitIsLive := by
  rw [parentUnit?]
  cases hf : (g.entity t).form with
  | type => rw [hf] at h; rw [← h]; rfl
  | _ => rw [hf] at h; cases h

/-- Live or not, the unit gives the type the name of its package. -/
theorem Filed.packageName_fst (h : Filed g u t) :
    (g.packageName t).1 = (g.unit u).packageName := by
  have hu := h.unit
  have hn := h.noted
  rw [Graph.packageName_fst]
  cases hf : (g.entity t).form with
  | type head fs ms v noted =>
    rw [hf] at hu hn
    cases hu
    cases hn
    rw [Form.packageName, Option.filter_some]
    split <;> rfl
  | _ => rw [hf] at hu; cases hu

/-- A type on file has nothing to note anew, and other types do not matter. -/
theorem Filed.packageName_snd (h : Filed g u t) (d : EntityId) :
    Filed (g.packageName d).2 u t := by
  by_cases hdt : d = t
  · have hsame : (g.packageName d).2 = g := by
      refine Session.packageName_snd_of_noted fun v hv ↦ ?_
      rw [hdt] at hv ⊢
      rw [parentUnit?_eq_of_unit? h.unit] at hv
      obtain ⟨hv, -⟩ := Option.filter_eq_some_iff.1 hv
      rw [← Option.some.inj hv, h.noted]
    rwa [hsame]
  · cases hd : g.parentUnit? d with
    | none => rwa [Session.packageName_snd_of_none hd]
    | some v =>
      obtain ⟨head, fs, ms, noted, hform, hlive⟩ := Session.parentUnit?_eq_some hd
      have ht (form : Form) : (g.modifyForm d fun _ ↦ form).entity t = g.entity t := by
        rw [modifyForm, entity_modifyEntity, if_neg fun h ↦ hdt h.1.symm]
      rw [Session.packageName_snd_of_some hform hlive]
      refine ⟨h.listed, ?_, ?_⟩
      · rw [ht]
        exact h.unit
      · rw [ht]
        exact h.noted

theorem Filed.qualifiedNames (h : Filed g u t) (ts : List EntityId) :
    Filed (Graph.qualifiedNames ts g).2 u t := by
  induction ts generalizing g with
  | nil => exact h
  | cons d ts ih => exact ih (h.packageName_snd d)

/-- Looking up the names of the types of a live unit puts them on file. -/
theorem filed_qualifiedNames {ts : List EntityId} (ht : t ∈ ts) (hlive : g.unitIsLive u = true)
    (hl : t ∈ (g.unit u).types) (hu : (g.entity t).form.unit? = some u) :
    Filed (Graph.qualifiedNames ts g).2 u t := by
  induction ts generalizing g with
  | nil => cases ht
  | cons d ts ih =>
    have hs := Settled.packageName_snd g d
    have hl' : t ∈ ((g.packageName d).2.unit u).types := by rwa [hs.types]
    have hu' : ((g.packageName d).2.entity t).form.unit? = some u := by
      rw [(SameLinks.packageName g d).unit]
      exact hu
    rcases List.mem_cons.1 ht with rfl | ht
    · have hparent : g.parentUnit? t = some u := by
        rw [parentUnit?_eq_of_unit? hu, Option.filter_some, if_pos hlive]
      have hfiled : Filed (g.packageName t).2 u t := by
        refine ⟨hl', hu', ?_⟩
        rw [Session.noted_packageName hparent, hs.unitPackageName]
      exact hfiled.qualifiedNames ts
    · exact ih ht ((hs.live u).trans hlive) hl' hu'

/-! ## Indices -/

/-- What a registry finds under a name is on file with one of its units, has that name, and is
listed by the package. -/
def Indexed (g : Graph) (r : Registry UnitId EntityId) : Prop :=
  ∀ n t, r.type? n = some t → ∃ u ∈ r.units, Filed g u t ∧
    qualify (g.unit u).packageName (g.entity t).header.name = n ∧
    ∃ ts, r.package? (g.unit u).packageName = some ts ∧ t ∈ ts

/-- What is on file stays there, and no registry changes. -/
structure Carries (g g' : Graph) : Prop where
  filed : ∀ u t, (g.unit u).frozen = true → (g.entity t).frozen = true → Filed g u t → Filed g' u t
  registry : ∀ r, g'.registry r = g.registry r

theorem Carries.refl (g : Graph) : Carries g g := ⟨fun _ _ _ _ h ↦ h, fun _ ↦ rfl⟩

theorem Carries.packageName (g : Graph) (d : EntityId) : Carries g (g.packageName d).2 where
  filed _ _ _ _ h := h.packageName_snd d
  registry := (SameLinks.packageName g d).registry

theorem Rests.carries (h : Rests g g') (hk : Keeps g g') : Carries g g' where
  filed u t hu ht hf := by
    refine ⟨?_, ?_, ?_⟩
    · rw [hk.unit u hu]
      exact hf.listed
    · rw [h.form t ht]
      exact hf.unit
    · rw [h.form t ht, hk.unit u hu]
      exact hf.noted
  registry := h.registry

theorem Indexed.frozen (hg : g.Sound) (h : Indexed g (g.registry i)) {n : String}
    (ht : (g.registry i).type? n = some t) : (g.entity t).frozen = true := by
  obtain ⟨u, hu, hf, -⟩ := h n t ht
  exact hg.types u (hg.units i u hu) t hf.listed

theorem Indexed.carry (hg : g.Sound) (hk : Keeps g g') (hc : Carries g g')
    (h : Indexed g (g.registry i)) : Indexed g' (g'.registry i) := by
  intro n t ht
  rw [hc.registry] at ht ⊢
  have htf := h.frozen hg ht
  obtain ⟨u, hu, hf, hn, hp⟩ := h n t ht
  have huf := hg.units i u hu
  refine ⟨u, hu, hc.filed u t huf htf hf, ?_, ?_⟩
  · rw [hk.unit u huf, hk.header t htf]
    exact hn
  · rw [hk.unit u huf]
    exact hp

/-! ## Registering -/

theorem proceeds_named (g : Graph) (u : UnitId) : Proceeds g (g.named u) :=
  (Proceeds.freezeUnit g u).trans (Proceeds.qualifiedNames _ _)

theorem carries_named (hg : g.Sound) (u : UnitId) : Carries g (g.named u) where
  filed v t hv ht hf := by
    have hk := (Proceeds.freezeUnit g u hg).2
    exact (((Rests.freezeUnit g u).carries hk).filed v t hv ht hf).qualifiedNames _
  registry := registry_named g u

theorem filed_named (hu : g.isHeld (.unit u) = true) (ht : t ∈ (g.unit u).types)
    (htu : (g.entity t).form.unit? = some u) : Filed (g.named u) u t := by
  have hs := Settled.freezeUnit g u
  apply filed_qualifiedNames ht
  · rw [hs.live, unitIsLive, hu, Bool.true_or]
  · rw [hs.types]
    exact ht
  · rw [(SameLinks.freezeUnit g u).unit]
    exact htu

/-- A unit whose types refer to it is indexed rightly. -/
theorem indexed_registered (hg : g.Sound) (hu : g.isHeld (.unit u) = true)
    (htu : ∀ t ∈ (g.unit u).types, (g.entity t).form.unit? = some u)
    (h : Indexed g (g.registry i)) : Indexed (g.named u) (g.registered i u).1 := by
  have hs := settled_named g u
  have hc := carries_named hg u
  have hold := h.carry hg (proceeds_named g u hg).2 hc
  rw [hc.registry] at hold
  have hunits : (g.registered i u).1.units = (g.registry i).units ++ [u] :=
    Registry.units_register ..
  intro n t ht
  rcases Registry.type?_register ht with ht | ⟨ht, hp⟩
  · obtain ⟨v, hv, hf, hn, ts, hts, hmem⟩ := hold n t ht
    obtain ⟨ts', hts', hsub⟩ := (Registry.extends_register _ _ _ _).package hts
    refine ⟨v, ?_, hf, hn, ts', hts', hsub hmem⟩
    rw [hunits]
    exact List.mem_append_left _ hv
  · obtain ⟨c, hc, heq⟩ := List.mem_map.1 ht
    obtain ⟨rfl, rfl⟩ := Prod.mk.inj heq
    have hf := filed_named hu hc (htu c hc)
    refine ⟨u, ?_, hf, ?_, ?_⟩
    · rw [hunits]
      exact List.mem_append_right _ List.mem_cons_self
    · rw [← hf.packageName_fst, ← qualifiedName_fst, hs.qualifiedName]
    · rw [hs.unitPackageName]
      exact hp

theorem indexed_addToRegistry (hg : g.Sound) (hclosed : g.Closed) (hu : g.isHeld (.unit u) = true)
    (htu : ∀ t ∈ (g.unit u).types, (g.entity t).form.unit? = some u)
    (h : ∀ j, Indexed g (g.registry j)) (j : RegistryId) :
    Indexed (g.addToRegistry i u).1 ((g.addToRegistry i u).1.registry j) := by
  have hnamed : Indexed (g.named u) (if j = i ∧ j < g.registries.length then
      (g.registered i u).1 else g.registry j) := by
    split
    · exact indexed_registered hg hu htu (h i)
    · have hc := carries_named hg u
      rw [← hc.registry]
      exact (h j).carry hg (proceeds_named g u hg).2 hc
  rw [registry_addToRegistry hclosed.apart, addToRegistry_fst_eq]
  intro n t ht
  obtain ⟨v, hv, hf, hrest⟩ := hnamed n t ht
  exact ⟨v, hv, ⟨hf.listed, hf.unit, hf.noted⟩, hrest⟩

end Graph

namespace Session

open JavaOutline.Graph

variable {g g' : Graph} {s : String} {u : UnitId} {t : EntityId} {i : RegistryId}

/-! ## Careful steps -/

/-- The kind of declaration that an assignment lists, with the handles of what it lists. -/
def Assignment.listed? : Assignment → Option (Form.Kind × List String)
  | .parameters hs => some (.parameter, hs)
  | .fields hs => some (.field, hs)
  | .methods hs => some (.method, hs)
  | .types hs => some (.type, hs)
  | _ => none

/-- Whether an assignment lists declarations of the right kind only. -/
def Assignment.fits (g : Graph) (a : Assignment) : Bool :=
  a.listed?.all fun (kind, hs) ↦ hs.all fun h ↦
    (findEntity g h).toOption.all fun e ↦ (g.entity e).form.kind == kind

/-- Whether a registry has the package. -/
def isListed (g : Graph) (p : PackageId) : Bool :=
  g.registries.any fun o ↦ o.packages.any (·.2 == p)

/-- Whether an assignment replaces what a package of a registry lists. -/
def Assignment.unlists (g : Graph) : Ref → Assignment → Bool
  | .package p, .types _ => isListed g p
  | _, _ => false

/-- Whether a step assigns plain attributes only of what is not frozen, lists of members only with
members of the right kind and not to packages of registries, and registers a unit only if its types
refer to it. -/
def Step.isCareful (g : Graph) : Step → Bool
  | .set s a => a.isOrdinary || a.fits g &&
      (find g s).toOption.all fun r ↦ !isFrozen g r && !a.unlists g r
  | .call _ (.register s) => (findUnit g s).toOption.all fun u ↦
      (g.unit u).types.all fun t ↦ (g.entity t).form.unit? == some u
  | s => s.makesBare

/-- Whether each step is careful at its turn. -/
def isCareful : Graph → List Step → Bool
  | _, [] => true
  | g, s :: ss => s.isCareful g && isCareful (step g s).1 ss

theorem isCareful_append (g : Graph) (ss ss' : List Step) :
    isCareful g (ss ++ ss') = (isCareful g ss && isCareful (run g ss).1 ss') := by
  induction ss generalizing g with
  | nil => rw [List.nil_append, isCareful, Bool.true_and]; rfl
  | cons s ss ih =>
    rw [List.cons_append, isCareful, ih, isCareful, Bool.and_assoc]
    rfl

theorem kind_of_fits {a : Assignment} (ha : a.fits g = true) {kind : Form.Kind} {hs : List String}
    (hl : a.listed? = some (kind, hs)) {es : List EntityId}
    (hes : hs.mapM (findEntity g) = .ok es) : ∀ e ∈ es, (g.entity e).form.kind = kind := by
  rw [Assignment.fits, hl] at ha
  have hall (h) (hmem : h ∈ hs) := List.all_eq_true.1 ha h hmem
  have hR := mapM_eq_ok_iff.1 hes
  clear hes hl ha
  induction hR with
  | nil => exact nofun
  | cons he _ ih =>
    refine List.forall_mem_cons.2 ⟨?_, ih fun h hmem ↦ hall h (List.mem_cons_of_mem _ hmem)⟩
    have hk := hall _ List.mem_cons_self
    rw [he] at hk
    exact beq_iff_eq.1 hk

/-! ## What careful steps leave alone -/

/-- What registries list does not depend on other packages. -/
theorem ne_of_not_isListed {p : PackageId} (hp : isListed g p = false) {c : String × PackageId}
    (hc : c ∈ (g.registryObject i).packages) : c.2 ≠ p := by
  rintro rfl
  have hlt := lt_of_mem_packages hc
  have hobject : g.registryObject i ∈ g.registries := by
    rw [registryObject, List.getD_eq_getElem _ _ hlt]
    exact List.getElem_mem hlt
  refine Bool.false_ne_true (hp.symm.trans (List.any_eq_true.2 ⟨_, hobject, ?_⟩))
  exact List.any_eq_true.2 ⟨c, hc, beq_self_eq_true _⟩

theorem rests_modifyPackage {p : PackageId} {f : PackageObject → PackageObject}
    (h : isListed g p = false ∨ (f (g.package p)).types = (g.package p).types) :
    Rests g (g.modifyPackage p f) := by
  refine .of_eq rfl fun r ↦ registry_congr rfl fun c hc ↦ ?_
  rw [package_modifyPackage]
  split
  next hcp =>
    rw [hcp.1]
    exact h.resolve_left fun hp ↦ ne_of_not_isListed hp hc hcp.1
  next => rfl

theorem rests_bind (s : String) (r : Ref) : Rests g (g.bind s r) := .of_eq rfl fun _ ↦ rfl

theorem rests_make (s : String) (o : NewObject) : Rests g (make g s o).1 := by
  cases o with
  | entity header form => exact (Rests.addEntity g _).trans (rests_bind _ _)
  | method header head handles =>
    rw [make]
    split
    next => exact .refl g
    next ps _ =>
      have hn := Rests.newMethod g header head ps
      split
      next g₁ m hm =>
        rw [hm] at hn
        exact hn.trans (rests_bind _ _)
      next g₁ f hm =>
        rw [hm] at hn
        exact hn
  | package name =>
    have hn : Rests g { g with packages := g.packages ++ [{ name }] } :=
      .of_eq rfl (SameLinks.addPackage rfl).registry
    exact hn.trans (rests_bind _ _)
  | registry =>
    have hn : Rests g { g with registries := g.registries ++ [{}] } :=
      .of_eq rfl (SameLinks.addRegistry g).registry
    exact hn.trans (rests_bind _ _)
  | _ => exact .of_eq rfl fun _ ↦ rfl

theorem rests_act {r : Ref} {c : Call} (h : act? g r c = some (.ok g')) : Rests g g' := by
  rw [act?.eq_def] at h
  split at h
  · exact .setModifiers (Option.some.inj h)
  · exact .setComment (Option.some.inj h)
  · exact .setTags (Option.some.inj h)
  · obtain ⟨p, -, h⟩ := bind_eq_ok_iff.1 (Option.some.inj h)
    exact .setParent h
  · cases h
    exact .freeze g _
  · obtain ⟨u, -, h⟩ := bind_eq_ok_iff.1 (Option.some.inj h)
    exact .setParentUnit h
  · obtain ⟨f, -, h⟩ := bind_eq_ok_iff.1 (Option.some.inj h)
    exact .adopts (adopts_of_addField h)
  · obtain ⟨m, -, h⟩ := bind_eq_ok_iff.1 (Option.some.inj h)
    exact .adopts (adopts_of_addMethod h)
  · obtain ⟨p, -, h⟩ := bind_eq_ok_iff.1 (Option.some.inj h)
    exact .adopts (adopts_of_addParameter h)
  · obtain ⟨t, -, h⟩ := bind_eq_ok_iff.1 (Option.some.inj h)
    exact .addType h
  · cases h
    exact .freezeUnit g _
  · cases h
    exact .of_eq rfl fun _ ↦ rfl
  · cases h
    exact .of_eq rfl fun _ ↦ rfl
  · cases h
    exact .of_eq rfl fun _ ↦ rfl
  · cases h
    exact .of_eq rfl fun _ ↦ rfl
  · cases h

/-- What only one kind of entity has can be assigned anew, with members of the right kind. -/
theorem kind_assignForm? {f f' : Form} {a : Assignment} (ha : a.fits g = true)
    (h : assignForm? g f a = some (.ok f')) :
    f'.kind = f.kind ∧
      ∀ m ∈ f'.members, m ∈ f.members ∨ f.kind.takes (g.entity m).form.kind = true := by
  rw [assignForm?.eq_def] at h
  split at h
  case h_10 =>
    obtain ⟨ps, hps, rfl⟩ := map_eq_ok_iff.1 (Option.some.inj h)
    refine ⟨rfl, fun m hm ↦ .inr ?_⟩
    rw [kind_of_fits ha rfl hps m hm]
    rfl
  case h_16 =>
    obtain ⟨fs, hfs, rfl⟩ := map_eq_ok_iff.1 (Option.some.inj h)
    refine ⟨rfl, fun m hm ↦ ?_⟩
    rcases List.mem_append.1 hm with hm | hm
    · rw [kind_of_fits ha rfl hfs m hm]
      exact .inr rfl
    · exact .inl (List.mem_append_right _ hm)
  case h_17 =>
    obtain ⟨ms, hms, rfl⟩ := map_eq_ok_iff.1 (Option.some.inj h)
    refine ⟨rfl, fun m hm ↦ ?_⟩
    rcases List.mem_append.1 hm with hm | hm
    · exact .inl (List.mem_append_left _ hm)
    · rw [kind_of_fits ha rfl hms m hm]
      exact .inr rfl
  case h_18 => cases h
  all_goals
    cases h
    exact ⟨rfl, fun m hm ↦ .inl hm⟩

/-- A step leaves alone what is frozen, down to the forms, and keeps the invariant. -/
def Spares (g g' : Graph) : Prop := Proceeds g g' ∧ Rests g g'

/-- An assignment that goes through a setter, or is about something that is not frozen and leaves
the packages of registries alone. -/
def Assignment.IsFair (g : Graph) (r : Ref) (a : Assignment) : Prop :=
  a.isOrdinary = true ∨ a.fits g = true ∧ isFrozen g r = false ∧ a.unlists g r = false

theorem Assignment.IsFair.of_plain {r : Ref} {a : Assignment} (h : a.IsFair g r)
    (ha : a.isOrdinary = false) :
    a.fits g = true ∧ isFrozen g r = false ∧ a.unlists g r = false :=
  h.resolve_left (by simp [ha])

theorem spares_assignEntity {e : EntityId} {a : Assignment} (ha : a.IsFair g (.entity e))
    (h : assignEntity? g e a = some (.ok g')) : Spares g g' := by
  cases a with
  | name n => cases h; exact ⟨.modifyHeader (ha.of_plain rfl).2.1 _, .modifyHeader g e _⟩
  | line n => cases h; exact ⟨.modifyHeader (ha.of_plain rfl).2.1 _, .modifyHeader g e _⟩
  | modifiers ms => exact ⟨.setModifiers (Option.some.inj h), .setModifiers (Option.some.inj h)⟩
  | comment c => exact ⟨.setComment (Option.some.inj h), .setComment (Option.some.inj h)⟩
  | tags ts => exact ⟨.setTags (Option.some.inj h), .setTags (Option.some.inj h)⟩
  | parent p =>
    obtain ⟨p, -, h⟩ := bind_eq_ok_iff.1 (Option.some.inj h)
    exact ⟨.setParent h, .setParent h⟩
  | _ =>
    obtain ⟨x, hx, h⟩ := Option.map_eq_some_iff.1 h
    obtain ⟨form, rfl, rfl⟩ := map_eq_ok_iff.1 h
    rcases ha with ha | ⟨ha, he, -⟩
    · rw [assignForm?_eq_none ha] at hx
      cases hx
    · obtain ⟨hk, hm⟩ := kind_assignForm? ha hx
      have he : (g.entity e).frozen = false := he
      have hf {P : Prop} (h : (g.entity e).frozen = true) : P := absurd h (by simp [he])
      exact ⟨.modifyEntity e hk rfl hf hf hm, .modifyForm he _⟩

theorem spares_assignUnit {u : UnitId} (hu : (g.unit u).frozen = false)
    {f : UnitObject → UnitObject} (hf : (f (g.unit u)).frozen = (g.unit u).frozen)
    (ht : ∀ t ∈ (f (g.unit u)).types, (g.entity t).form.kind = .type) :
    Spares g (g.modifyUnit u f) := by
  refine ⟨.modifyUnit u (fun h ↦ ?_) (fun h ↦ ?_) ht, .of_eq rfl fun _ ↦ rfl⟩
  · rw [hu] at h
    cases h
  · rw [hf, hu] at h
    cases h

theorem spares_assign (hg : g.Sound) {r : Ref} {a : Assignment} (ha : a.IsFair g r)
    (h : assign? g r a = some (.ok g')) : Spares g g' := by
  have hpackage {p : PackageId} {f : PackageObject → PackageObject}
      (hp : isListed g p = false ∨ (f (g.package p)).types = (g.package p).types) :
      Spares g (g.modifyPackage p f) :=
    ⟨.of_objects_eq rfl rfl (fun _ _ ↦ .inl) fun _ ↦ .inl, rests_modifyPackage hp⟩
  have hsink (s : SinkId) (f : Sink → Sink) : Spares g (g.modifySink s f) :=
    ⟨proceeds_modifySink s f, .of_eq rfl fun _ ↦ rfl⟩
  rw [assign?.eq_def] at h
  split at h
  · exact spares_assignEntity ha h
  · cases h; exact spares_assignUnit (ha.of_plain rfl).2.1 rfl (hg.typeKinds _)
  · cases h; exact spares_assignUnit (ha.of_plain rfl).2.1 rfl (hg.typeKinds _)
  · cases h; exact spares_assignUnit (ha.of_plain rfl).2.1 rfl (hg.typeKinds _)
  · obtain ⟨ts, hts, h⟩ := bind_eq_ok_iff.1 (Option.some.inj h)
    obtain ⟨hfits, hu, -⟩ := ha.of_plain rfl
    cases h
    exact spares_assignUnit hu rfl (kind_of_fits hfits rfl hts)
  · cases h; exact hpackage (.inr rfl)
  · obtain ⟨ts, -, h⟩ := bind_eq_ok_iff.1 (Option.some.inj h)
    cases h
    exact hpackage (.inl (ha.of_plain rfl).2.2)
  · cases h; exact hsink _ _
  · cases h; exact hsink _ _
  · cases h; exact hsink _ _
  · cases h

/-! ## Steps -/

/-- What a careful step does: it carries what is on file along, or registers a unit whose types
refer to it. -/
inductive Advances (g : Graph) : Step → Graph → Prop where
  | carries {s : Step} {g' : Graph} (h : Carries g g') : Advances g s g'
  | registers {lib s : String} {i : RegistryId} {u : UnitId}
      (hl : g.bound? lib = some (.registry i)) (hs : g.bound? s = some (.unit u))
      (htu : ∀ t ∈ (g.unit u).types, (g.entity t).form.unit? = some u) :
      Advances g (.call lib (.register s)) (g.addToRegistry i u).1

theorem spares_set (hg : g.Sound) {a : Assignment} (hs : (Step.set s a).isCareful g = true) :
    Spares g (step g (.set s a)).1 := by
  rw [step, withRef]
  split
  next r hr =>
    have ha : a.IsFair g r := by
      rcases Bool.or_eq_true_iff.1 hs with ha | ha
      · exact .inl ha
      · obtain ⟨ha, hr'⟩ := Bool.and_eq_true_iff.1 ha
        rw [hr] at hr'
        have hr' : (!isFrozen g r && !a.unlists g r) = true := hr'
        exact .inr ⟨ha, by simpa using hr'⟩
    split
    next h => exact spares_assign hg ha h
    next => exact ⟨.refl g, .refl g⟩
    next => exact ⟨.refl g, .refl g⟩
  next => exact ⟨.refl g, .refl g⟩

theorem makesBare_of_isCareful {st : Step} (hs : st.isCareful g = true) : st.makesBare = true := by
  cases st with
  | new s o => exact hs
  | _ => rfl

theorem rests_hold (s lib n : String) : Rests g (step g (.hold s lib n)).1 := by
  rcases step_hold g s lib n with h | h | ⟨r, p, -, -, h⟩
  · rw [h]
    exact .refl g
  · rw [h]
    exact .of_eq rfl fun _ ↦ rfl
  · rw [h]
    exact rests_bind _ _

/-- A careful step keeps the invariant and leaves alone what is frozen. -/
theorem proceeds_isCareful {st : Step} (hs : st.isCareful g = true) :
    Proceeds g (step g st).1 := by
  intro hg
  cases st with
  | set s a => exact (spares_set hg hs).1 hg
  | new s o =>
    refine proceeds_step ?_ hg
    cases o with
    | entity header form => exact (Bool.and_eq_true_iff.1 hs).1
    | _ => rfl
  | _ => exact proceeds_step rfl hg

theorem advances_call (hg : g.Sound) {c : Call} (hs : (Step.call s c).isCareful g = true) :
    Advances g (.call s c) (step g (.call s c)).1 := by
  rw [step, withRef]
  split
  next r hr =>
    rw [call.eq_def]
    split
    next e => split <;> [exact .carries (.packageName g e); exact .carries (.refl g)]
    next e => split <;> [exact .carries (.packageName g e); exact .carries (.refl g)]
    next i h =>
      split
      · exact .carries (.refl g)
      next u hu =>
        refine .registers (bound?_of_find hr) (bound?_of_findUnit hu) fun t ht ↦ ?_
        rw [Step.isCareful, hu] at hs
        exact beq_iff_eq.1 (List.all_eq_true.1 hs t ht)
    next =>
      split
      next h => exact .carries ((rests_act h).carries (proceeds_act h hg).2)
      next => exact .carries (.refl g)
      next => split <;> exact .carries (.refl g)
  next => exact .carries (.refl g)

theorem advances_step (hg : g.Sound) {st : Step} (hs : st.isCareful g = true) :
    Advances g st (step g st).1 := by
  have hk := (proceeds_isCareful hs hg).2
  have hread {s : String} (f : Ref → Reply) :
      Carries g (withRef g s fun r ↦ (g, f r)).1 := by
    rw [withRef]
    split <;> exact .refl g
  cases st with
  | new s o => exact .carries ((rests_make s o).carries hk)
  | set s a => exact .carries ((spares_set hg hs).2.carries hk)
  | call s c => exact advances_call hg hs
  | drop s => exact .carries (Rests.carries (.of_eq rfl fun _ ↦ rfl) hk)
  | hold s lib n => exact .carries ((rests_hold s lib n).carries hk)
  | get | render | describe | «show» => exact .carries (hread _)
  | _ => exact .carries (.refl g)

/-! ## Texts -/

theorem answer?_block_congr (hh : ∀ e, (g'.entity e).header = (g.entity e).header)
    (hf : ∀ e, (g'.entity e).form = (g.entity e).form) (unit : String) :
    answer? g' (.entity t) (.block unit) = answer? g (.entity t) (.block unit) := by
  rw [answer?_block, answer?_block, hf, writeEntity?_congr hh hf]

/-- Registering a unit leaves the text of its types as it is. -/
theorem answer?_block_addToRegistry (hg : g.Sound) (hu : u < g.units.length)
    (ht : t ∈ (g.unit u).types) (i : RegistryId) (unit : String) :
    answer? (g.addToRegistry i u).1 (.entity t) (.block unit) =
      answer? g (.entity t) (.block unit) := by
  have hfrozen := (Proceeds.freezeUnit g u hg).1
  have htf : ((g.freezeUnit u).entity t).frozen = true := by
    refine hfrozen.types u (frozen_freezeUnit hu) t ?_
    rwa [(Settled.freezeUnit g u).types]
  have hk : Keeps (g.freezeUnit u) (g.named u) := (Proceeds.qualifiedNames _ _ hfrozen).2
  have hset (e : EntityId) : (g.addToRegistry i u).1.entity e = (g.named u).entity e := by
    rw [addToRegistry_fst_eq]
    rfl
  calc answer? (g.addToRegistry i u).1 (.entity t) (.block unit)
    _ = answer? (g.named u) (.entity t) (.block unit) :=
        answer?_block_congr (fun e ↦ by rw [hset]) (fun e ↦ by rw [hset]) unit
    _ = answer? (g.freezeUnit u) (.entity t) (.block unit) :=
        answer?_block_of_keeps hk hfrozen.toFrozenBelow htf unit
    _ = answer? g (.entity t) (.block unit) :=
        answer?_block_congr (header_freezeUnit g u)
          (fun e ↦ (entity_foldl_freeze (g.unit u).types g e).1) unit

/-! ## Runs -/

/-- Some step has registered a unit with this type, and the type still has the text that it had
before that step. -/
def Registered (ss : List Step) (i : RegistryId) (t : EntityId) : Prop :=
  ∃ pre lib s post u, ss = pre ++ .call lib (.register s) :: post ∧
    (run {} pre).1.bound? lib = some (.registry i) ∧ (run {} pre).1.bound? s = some (.unit u) ∧
    t ∈ ((run {} pre).1.unit u).types ∧
    ∀ unit, answer? (run {} ss).1 (.entity t) (.block unit) =
      answer? (run {} pre).1 (.entity t) (.block unit)

/-- The state of a careful session: what registries find is on file, and was registered with the
text that it has. -/
structure Holds (ss : List Step) (g : Graph) : Prop where
  sound : g.Sound
  closed : g.Closed
  indexed : ∀ i, Indexed g (g.registry i)
  registered : ∀ i n t, (g.registry i).type? n = some t → Registered ss i t

theorem run_concat (g : Graph) (ss : List Step) (st : Step) :
    (run g (ss ++ [st])).1 = (step (run g ss).1 st).1 := by
  rw [run_append]
  rfl

/-- What has been registered stays so. -/
theorem Registered.concat {ss : List Step} (h : Registered ss i t) {st : Step}
    (hk : Keeps (run {} ss).1 (step (run {} ss).1 st).1) (hb : (run {} ss).1.FrozenBelow)
    (ht : ((run {} ss).1.entity t).frozen = true) : Registered (ss ++ [st]) i t := by
  obtain ⟨pre, lib, s, post, u, rfl, hl, hs, htu, htext⟩ := h
  refine ⟨pre, lib, s, post ++ [st], u, by simp, hl, hs, htu, fun unit ↦ ?_⟩
  rw [← htext, run_concat]
  exact answer?_block_of_keeps hk hb ht unit

theorem Holds.step {ss : List Step} (h : Holds ss g) (hg : (run {} ss).1 = g) {st : Step}
    (hs : st.isCareful g = true) : Holds (ss ++ [st]) (step g st).1 := by
  subst hg
  obtain ⟨hsound, hk⟩ := proceeds_isCareful hs h.sound
  have hclosed := (relinks_step h.closed (makesBare_of_isCareful hs)).closed h.closed
  have hold {i n t} (ht : ((run {} ss).1.registry i).type? n = some t) :
      Registered (ss ++ [st]) i t :=
    (h.registered i n t ht).concat hk h.sound.toFrozenBelow ((h.indexed i).frozen h.sound ht)
  generalize hg' : (Session.step (run {} ss).1 st).1 = g' at *
  have hi := advances_step h.sound hs
  rw [hg'] at hi
  cases hi with
  | carries hc =>
    refine ⟨hsound, hclosed, fun i ↦ (h.indexed i).carry h.sound hk hc, fun i n t ht ↦ ?_⟩
    rw [hc.registry] at ht
    exact hold ht
  | @registers lib s i u hl hs' htu =>
    have hu := isHeld_of_bound? hs'
    have hlt : (run {} ss).1.Has (.unit u) :=
      has_of_find h.sound (s := s) (by rw [find, hs'])
    refine ⟨hsound, hclosed, indexed_addToRegistry h.sound h.closed hu htu h.indexed,
      fun j n t ht ↦ ?_⟩
    rw [registry_addToRegistry h.closed.apart] at ht
    split at ht
    next hj =>
      obtain ⟨rfl, -⟩ := hj
      rcases Registry.type?_register ht with ht | ⟨ht, -⟩
      · exact hold ht
      · obtain ⟨c, hc, heq⟩ := List.mem_map.1 ht
        obtain ⟨-, rfl⟩ := Prod.mk.inj heq
        refine ⟨ss, lib, s, [], u, rfl, hl, hs', hc, fun unit ↦ ?_⟩
        rw [run_concat, hg']
        exact answer?_block_addToRegistry h.sound hlt hc _ unit
    next => exact hold ht

theorem holds_run {ss : List Step} (hs : isCareful {} ss = true) : Holds ss (run {} ss).1 := by
  induction ss using List.reverseRecOn with
  | nil =>
    have hnone (i : RegistryId) (n : String) : (registry {} i).type? n = none := rfl
    refine ⟨sound_empty, .empty, fun i n t ht ↦ ?_, fun i n t ht ↦ ?_⟩
    · cases (hnone i n).symm.trans ht
    · cases (hnone i n).symm.trans ht
  | append_singleton ss st ih =>
    rw [isCareful_append, Bool.and_eq_true_iff] at hs
    obtain ⟨hss, hst⟩ := hs
    rw [isCareful, isCareful, Bool.and_true] at hst
    rw [run_concat]
    exact (ih hss).step rfl hst

/-- In every state of a careful session, a type that a registry finds under a name has that
qualified name and is listed by its package, and it has the text that it had when its unit was
registered. -/
theorem run_index {steps : List Step} (hs : isCareful {} steps = true) {g : Graph}
    (hg : (run {} steps).1 = g) {i : RegistryId} {n : String} {t : EntityId}
    (ht : (g.registry i).type? n = some t) :
    (g.qualifiedName t).1 = n ∧
      (∃ ts, (g.registry i).package? (g.packageName t).1 = some ts ∧ t ∈ ts) ∧
      Registered steps i t := by
  subst hg
  have h := holds_run hs
  obtain ⟨u, -, hf, hn, hp⟩ := h.indexed i n t ht
  refine ⟨?_, ?_, h.registered i n t ht⟩
  · rw [qualifiedName_fst, hf.packageName_fst, hn]
  · rw [hf.packageName_fst]
    exact hp

/-- A type is renamed and its unit moved to another package before they are registered; later on,
the package of the registry gets another name, the handle of the unit is dropped, and so is that of
the registry. -/
theorem run_index_renamed : ∃ g : Graph, (run {} [
        .new "u" (.unit (some "A.java") (some "p") []),
        .new "a" (.entity { name := "A" } (.type {} [] [] none "")), .call "u" (.addType "a"),
        .set "a" (.name "B"), .set "u" (.package (some "q")),
        .new "lib" .registry, .call "lib" (.register "u"),
        .set "a" (.comment (some "late")), .hold "k" "lib" "q", .set "k" (.name "r"),
        .drop "u", .drop "lib"]).1 = g ∧
      (g.registry 0).type? "q.B" = some 0 ∧ g.unitIsLive 0 = false ∧
      (g.qualifiedName 0).1 = "q.B" ∧
      ∃ ts, (g.registry 0).package? (g.packageName 0).1 = some ts ∧ 0 ∈ ts := by
  refine ⟨_, rfl, ?_⟩
  generalize hg : (run {} _).1 = g
  have ht : (g.registry 0).type? "q.B" = some 0 := by rw [← hg]; decide +kernel
  obtain ⟨hname, hpackage, -⟩ := run_index (by decide +kernel) hg ht
  exact ⟨ht, by rw [← hg]; decide +kernel, hname, hpackage⟩

/-- A registered type can be renamed all the same, although it is frozen: it is then found under a
name that it no longer has, and its text has changed.  And the package that lists it can be emptied:
it is then found, but not listed. -/
theorem run_index_ne : ∃ g g' g'' : Graph, (run {} [
        .new "u" (.unit (some "A.java") (some "p") []),
        .new "a" (.entity { name := "A" } (.type {} [] [] none "")), .call "u" (.addType "a"),
        .new "lib" .registry, .call "lib" (.register "u")]).1 = g ∧
      (step g (.set "a" (.name "B"))).1 = g' ∧ (g.entity 0).frozen = true ∧
      (g'.registry 0).type? "p.A" = some 0 ∧ (g'.qualifiedName 0).1 = "p.B" ∧
      answer? g (.entity 0) (.block "    ") = some (.ok (.text "class A \x7b\n\x7d\n")) ∧
      answer? g' (.entity 0) (.block "    ") = some (.ok (.text "class B \x7b\n\x7d\n")) ∧
      (run g [.hold "k" "lib" "p", .set "k" (.types [])]).1 = g'' ∧
      (g''.registry 0).type? "p.A" = some 0 ∧ (g''.packageName 0).1 = "p" ∧
      (g''.registry 0).package? "p" = some [] :=
  ⟨_, _, _, rfl, rfl, by decide +kernel, by decide +kernel, by decide +kernel, rfl, rfl, rfl,
    by decide +kernel, by decide +kernel, by decide +kernel⟩

end Session

end JavaOutline
