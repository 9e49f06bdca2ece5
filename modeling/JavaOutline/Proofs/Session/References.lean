import JavaOutline.Proofs.Graph.Liveness
import JavaOutline.Proofs.Graph.Owners
import JavaOutline.Proofs.Session.Freezing
import JavaOutline.Proofs.Session.Registration

/-! # What a step does to references

Whatever a step is about, it does one of a few things to the links between objects
(`Session.Relinks`): it leaves them alone, assigns some of them, lets an owner take up what is
handed over, registers a unit, or changes what a handle holds.  `Session.relinks_step` takes the
steps apart once; that no object is ever mentioned before it is made (`Session.closed_run`) follows
case by case. -/

namespace JavaOutline.Session

open JavaOutline JavaOutline.Graph

variable {g g' : Graph}

/-! ## Steps and links -/

/-- Whether a step makes an entity without members and without a unit, if it makes one. -/
def Step.makesBare : Step → Bool
  | .new _ (.entity _ form) => form.members.isEmpty && form.unit?.isNone
  | _ => true

/-- Whether an assignment is one of parents or of a list of members. -/
def Assignment.assignsLinks : Assignment → Bool
  | .parent _ | .parameters _ | .fields _ | .methods _ | .types _ => true
  | _ => false

/-- Whether a step sets parents or lists of members directly. -/
def Step.assignsLinks : Step → Bool
  | .set _ a => a.assignsLinks
  | .call _ (.setParent _) | .call _ (.setParentUnit _) => true
  | _ => false

/-- The handle of what an operation hands over to the object it is called on. -/
def handed? : Call → Option String
  | .addField s | .addMethod s | .addParameter s | .addType s => some s
  | _ => none

/-- The entities that a step hands over to an owner: what is added, if that succeeds, and the
parameters of a new method in front of the first one that it refuses. -/
def handedOver (g : Graph) : Step → List EntityId
  | .new _ (.method _ _ handles) =>
    ((handles.mapM (findEntity g)).toOption.getD []).takeWhile g.isFreeParameter
  | .call s c =>
    if (step g (.call s c)).2.result.isOk then
      ((handed? c).bind fun h ↦ (findEntity g h).toOption).toList
    else []
  | _ => []

/-- What a step can do to the links between objects. -/
inductive Relinks (g : Graph) : Step → Graph → Prop where
  | same {s : Step} {g' : Graph} (h : SameLinks g g') : Relinks g s g'
  | assignEntity {s : Step} {e : EntityId} {f : Entity → Entity} (hs : s.assignsLinks = true)
      (h : (f (g.entity e)).Within g.entities.length g.units.length) :
      Relinks g s (g.modifyEntity e f)
  | assignTypes {s : Step} {u : UnitId} {f : UnitObject → UnitObject} (hs : s.assignsLinks = true)
      (h : ∀ t ∈ (f (g.unit u)).types, t < g.entities.length) : Relinks g s (g.modifyUnit u f)
  | assignPackage {s : Step} {p : PackageId} {f : PackageObject → PackageObject}
      (hs : s.assignsLinks = true) (h : ∀ t ∈ (f (g.package p)).types, t < g.entities.length) :
      Relinks g s (g.modifyPackage p f)
  | adopts {s : Step} {g' : Graph} {o e : EntityId} (hs : handedOver g s = [e])
      (he : g.isHeld (.entity e) = true) (h : Adopts g o e g') : Relinks g s g'
  | houses {s : Step} {g' : Graph} {u : UnitId} {t : EntityId} (hs : handedOver g s = [t])
      (ht : g.isHeld (.entity t) = true) (hu : u < g.units.length) (h : Houses g u t g') :
      Relinks g s g'
  | registers {s : Step} (i : RegistryId) {u : UnitId} (hu : g.isHeld (.unit u) = true) :
      Relinks g s (g.addToRegistry i u).1
  | binds {s : Step} {g' : Graph} (name : String) {r : Ref} (h : SameLinks g g')
      (hr : r.Within g'.entities.length g'.units.length) (hnext : g.IsNext r) :
      Relinks g s (g'.bind name r)
  | makesMethod {s : Step} {g' : Graph} (header : Header) (head : MethodHead)
      (hs : ∀ p ∈ handedOver g s, g.isHeld (.entity p) = true)
      (h : AdoptsAll g.entities.length (g.withMethod header head) (handedOver g s) g') :
      Relinks g s g'
  | bindsMethod {s : Step} {g' : Graph} (name : String) (header : Header) (head : MethodHead)
      (hs : ∀ p ∈ handedOver g s, g.isHeld (.entity p) = true)
      (h : AdoptsAll g.entities.length (g.withMethod header head) (handedOver g s) g') :
      Relinks g s (g'.bind name (.entity g.entities.length))
  | drops {s : Step} (name : String) : Relinks g s (g.drop name)
  | holds {s : Step} (name : String) {p : PackageId} (hp : g.HeldBelow p) :
      Relinks g s (g.bind name (.package p))

/-- What a step does to links keeps a graph closed. -/
theorem Relinks.closed {s : Step} (h : Relinks g s g') (hg : g.Closed) : g'.Closed := by
  cases h with
  | same h => exact h.closed hg
  | assignEntity _ h => exact hg.modifyEntity _ h
  | assignTypes _ h => exact hg.modifyUnit _ h
  | assignPackage _ h => exact hg.modifyPackage _ h
  | adopts _ _ h => exact h.closed hg
  | houses _ _ hu h => exact h.closed hu hg
  | registers i hu =>
    obtain ⟨p, hp, hpu⟩ := List.any_eq_true.1 hu
    have hu := hg.handles p hp
    rw [beq_iff_eq.1 hpu] at hu
    exact hg.addToRegistry i hu
  | binds name h hr => exact (h.closed hg).bind name hr
  | makesMethod header head _ h => exact h.closed ((sameLinks_withMethod g header head).closed hg)
  | bindsMethod name header head _ h =>
    refine (h.closed ((sameLinks_withMethod g header head).closed hg)).bind name ?_
    change g.entities.length < _
    rw [h.length]
    simp [withMethod, addEntity]
  | drops name => exact hg.drop name
  | holds name _ => exact hg.bind name trivial

/-! ## What handles hold -/

theorem bound?_of_find {s : String} {r : Ref} (h : find g s = .ok r) : g.bound? s = some r := by
  rw [find] at h
  split at h
  next hs => rw [hs, Except.ok.inj h]
  next => cases h

theorem bound?_of_findEntity {s : String} {e : EntityId} (h : findEntity g s = .ok e) :
    g.bound? s = some (.entity e) := by
  obtain ⟨r, hr, h⟩ := bind_eq_ok_iff.1 h
  split at h
  next => rw [bound?_of_find hr, Except.ok.inj h]
  next => cases h

theorem bound?_of_findUnit {s : String} {u : UnitId} (h : findUnit g s = .ok u) :
    g.bound? s = some (.unit u) := by
  obtain ⟨r, hr, h⟩ := bind_eq_ok_iff.1 h
  split at h
  next => rw [bound?_of_find hr, Except.ok.inj h]
  next => cases h

theorem isHeld_of_mem_mapM {hs : List String} {es : List EntityId}
    (h : hs.mapM (findEntity g) = .ok es) : ∀ e ∈ es, g.isHeld (.entity e) = true :=
  forall_mem_of_forall₂ (mapM_eq_ok_iff.1 h) fun _ _ h ↦ isHeld_of_bound? (bound?_of_findEntity h)

theorem findMaybe_eq_ok {α : Type} {f : String → Except Fault α} {P : α → Prop}
    (hf : ∀ s a, f s = .ok a → P a) {h : Option String} {o : Option α}
    (ho : findMaybe f h = .ok o) : ∀ a ∈ o, P a := by
  cases h with
  | none => cases ho; exact nofun
  | some s =>
    obtain ⟨a, ha, rfl⟩ := map_eq_ok_iff.1 ho
    intro b hb
    cases hb
    exact hf s a ha

/-! ## Taking steps apart -/

theorem relinks_header {s : Step} {e : EntityId} {property : String} {f : Header → Header}
    (h : (do g.checkMutable e property; pure (g.modifyHeader e f)) = .ok g') : Relinks g s g' := by
  obtain ⟨-, h⟩ := of_checkMutable h
  cases h
  exact .same (.modifyHeader g e f)

/-- What an operation hands over is what is found under the handle that it is given. -/
theorem handedOver_call {s h : String} {r : Ref} {c : Call} {e : EntityId}
    (hr : find g s = .ok r) (hc : handed? c = some h) (he : findEntity g h = .ok e)
    (ha : act? g r c = some (.ok g')) : handedOver g (.call s c) = [e] := by
  have hstep : (step g (.call s c)).2.result = .ok .nothing := by
    rw [step, withRef, hr]
    change (call g r c).2.result = _
    cases c <;> cases hc <;> cases r <;> simp only [call, ha]
  rw [handedOver, hstep, hc]
  change ((some h).bind fun h ↦ (findEntity g h).toOption).toList = _
  rw [Option.bind_some, he]
  rfl

theorem relinks_withRef {s : Step} {h : String} {f : Ref → Graph × Reply}
    (hf : ∀ r, find g h = .ok r → Relinks g s (f r).1) : Relinks g s (withRef g h f).1 := by
  rw [withRef]
  split
  next hr => exact hf _ hr
  next => exact .same (.refl g)

section

variable (hg : g.Closed)
include hg

theorem lt_of_findEntity {s : String} {e : EntityId} (h : findEntity g s = .ok e) :
    e < g.entities.length := hg.of_bound? (bound?_of_findEntity h)

theorem unit_lt_of_findUnit {s : String} {u : UnitId} (h : findUnit g s = .ok u) :
    u < g.units.length := hg.of_bound? (bound?_of_findUnit h)

theorem lt_of_mem_mapM {hs : List String} {es : List EntityId}
    (h : hs.mapM (findEntity g) = .ok es) : ∀ e ∈ es, e < g.entities.length :=
  forall_mem_of_forall₂ (mapM_eq_ok_iff.1 h) fun _ _ ↦ lt_of_findEntity hg

theorem relinks_make (s : String) {o : NewObject} (ho : (Step.new s o).makesBare = true) :
    Relinks g (.new s o) (make g s o).1 := by
  cases o with
  | entity header form =>
    obtain ⟨hm, hu⟩ : form.members = [] ∧ form.unit? = none := by
      simpa [Step.makesBare] using ho
    refine .binds s (.addEntity hm rfl hu) ?_ rfl
    simp [Ref.Within]
  | method header head handles =>
    rw [make]
    split
    next => exact .same (.refl g)
    next ps hps =>
      have hover : handedOver g (.new s (.method header head handles)) =
          ps.takeWhile g.isFreeParameter := by
        rw [handedOver, hps]
        rfl
      have hheld (p) (hp : p ∈ handedOver g (.new s (.method header head handles))) :
          g.isHeld (.entity p) = true := by
        rw [hover] at hp
        exact isHeld_of_mem_mapM hps p ((List.takeWhile_prefix _).subset hp)
      obtain ⟨hall, hok⟩ := adoptsAll_newMethod header head (lt_of_mem_mapM hg hps)
      rw [← hover] at hall
      split
      next g₁ m hm =>
        rw [hm] at hall hok
        rw [hok m rfl]
        exact .bindsMethod s header head hheld hall
      next g₁ f hm =>
        rw [hm] at hall
        exact .makesMethod header head hheld hall
  | unit path package imports =>
    refine .binds s (.addUnit rfl) ?_ rfl
    simp [Ref.Within]
  | package name => exact .binds s (.addPackage rfl) trivial rfl
  | registry => exact .binds s (.addRegistry g) trivial rfl
  | sink unit lineEnd => exact .binds s (.addSink g _) trivial trivial
  | tag t => exact .binds s (.refl g) trivial trivial

/-- Of what only one kind of entity has, only lists of members are links. -/
theorem assignForm?_links {f f' : Form} {a : Assignment} (h : assignForm? g f a = some (.ok f')) :
    f'.unit? = f.unit? ∧
      (a.assignsLinks = true ∧ (∀ m ∈ f'.members, m ∈ f.members ∨ m < g.entities.length) ∨
        f'.kind = f.kind ∧ f'.members = f.members) := by
  rw [assignForm?.eq_def] at h
  split at h
  case h_10 =>
    obtain ⟨ps, hps, rfl⟩ := map_eq_ok_iff.1 (Option.some.inj h)
    exact ⟨rfl, .inl ⟨rfl, fun m hm ↦ .inr (lt_of_mem_mapM hg hps m hm)⟩⟩
  case h_16 =>
    obtain ⟨fs, hfs, rfl⟩ := map_eq_ok_iff.1 (Option.some.inj h)
    refine ⟨rfl, .inl ⟨rfl, fun m hm ↦ ?_⟩⟩
    rcases List.mem_append.1 hm with hm | hm
    · exact .inr (lt_of_mem_mapM hg hfs m hm)
    · exact .inl (List.mem_append_right _ hm)
  case h_17 =>
    obtain ⟨ms, hms, rfl⟩ := map_eq_ok_iff.1 (Option.some.inj h)
    refine ⟨rfl, .inl ⟨rfl, fun m hm ↦ ?_⟩⟩
    rcases List.mem_append.1 hm with hm | hm
    · exact .inl (List.mem_append_left _ hm)
    · exact .inr (lt_of_mem_mapM hg hms m hm)
  case h_18 => cases h
  all_goals
    cases h
    exact ⟨rfl, .inr ⟨rfl, rfl⟩⟩

theorem relinks_setParent {s : Step} (hs : s.assignsLinks = true) {e : EntityId}
    {h : Option String} (hset : (do
      let p ← findMaybe (findEntity g) h
      g.setParent e p) = .ok g') : Relinks g s g' := by
  obtain ⟨p, hp, hset⟩ := bind_eq_ok_iff.1 hset
  obtain ⟨-, hset⟩ := of_checkMutable hset
  cases hset
  have he := hg.entities e
  exact .assignEntity hs ⟨he.members, findMaybe_eq_ok (fun _ _ ↦ lt_of_findEntity hg) hp, he.unit⟩

theorem relinks_assignEntity {s : String} {e : EntityId} {a : Assignment}
    (h : assignEntity? g e a = some (.ok g')) : Relinks g (.set s a) g' := by
  cases a with
  | name n => cases h; exact .same (.modifyHeader g e _)
  | line n => cases h; exact .same (.modifyHeader g e _)
  | modifiers ms => exact relinks_header (Option.some.inj h)
  | comment c => exact relinks_header (Option.some.inj h)
  | tags ts => exact relinks_header (Option.some.inj h)
  | parent p => exact relinks_setParent hg rfl (Option.some.inj h)
  | _ =>
    obtain ⟨x, hx, h⟩ := Option.map_eq_some_iff.1 h
    obtain ⟨form, rfl, rfl⟩ := map_eq_ok_iff.1 h
    have he := hg.entities e
    obtain ⟨hu, ⟨hs, hm⟩ | ⟨hk, hm⟩⟩ := assignForm?_links hg hx
    · refine .assignEntity hs ⟨fun m h ↦ ?_, he.parent, fun u h ↦ ?_⟩
      · exact (hm m h).elim (he.members m) id
      · exact he.unit u (hu ▸ h)
    · exact .same (.modifyForm e hk hm hu)

theorem relinks_assign {s : String} {r : Ref} {a : Assignment}
    (h : assign? g r a = some (.ok g')) : Relinks g (.set s a) g' := by
  rw [assign?.eq_def] at h
  split at h
  · exact relinks_assignEntity hg h
  · cases h; exact .same (.modifyUnit _ rfl)
  · cases h; exact .same (.modifyUnit _ rfl)
  · cases h; exact .same (.modifyUnit _ rfl)
  · obtain ⟨ts, hts, h⟩ := bind_eq_ok_iff.1 (Option.some.inj h)
    cases h
    exact .assignTypes rfl (lt_of_mem_mapM hg hts)
  · cases h; exact .same (.modifyPackage _ rfl)
  · obtain ⟨ts, hts, h⟩ := bind_eq_ok_iff.1 (Option.some.inj h)
    cases h
    exact .assignPackage rfl (lt_of_mem_mapM hg hts)
  · cases h; exact .same (.modifySink g _ _)
  · cases h; exact .same (.modifySink g _ _)
  · cases h; exact .same (.modifySink g _ _)
  · cases h

theorem relinks_act {s : String} {r : Ref} {c : Call} (hr : find g s = .ok r)
    (h : act? g r c = some (.ok g')) : Relinks g (.call s c) g' := by
  have hact := h
  rw [act?.eq_def] at h
  split at h
  · exact relinks_header (Option.some.inj h)
  · exact relinks_header (Option.some.inj h)
  · exact relinks_header (Option.some.inj h)
  · exact relinks_setParent hg rfl (Option.some.inj h)
  · cases h; exact .same (.freeze g _)
  · obtain ⟨u, hu, h⟩ := bind_eq_ok_iff.1 (Option.some.inj h)
    obtain ⟨-, head, fs, ms, v, noted, name, ht, rfl⟩ := of_setParentUnit_eq_ok h
    refine .assignEntity rfl ⟨fun d hd ↦ ?_, (hg.entities _).parent, ?_⟩
    · exact (hg.entities _).members d (by rw [ht]; exact hd)
    · exact findMaybe_eq_ok (fun _ _ ↦ unit_lt_of_findUnit hg) hu
  · obtain ⟨f, hf, h⟩ := bind_eq_ok_iff.1 (Option.some.inj h)
    exact .adopts (handedOver_call hr rfl hf hact) (isHeld_of_bound? (bound?_of_findEntity hf))
      (adopts_of_addField h)
  · obtain ⟨m, hm, h⟩ := bind_eq_ok_iff.1 (Option.some.inj h)
    exact .adopts (handedOver_call hr rfl hm hact) (isHeld_of_bound? (bound?_of_findEntity hm))
      (adopts_of_addMethod h)
  · obtain ⟨p, hp, h⟩ := bind_eq_ok_iff.1 (Option.some.inj h)
    exact .adopts (handedOver_call hr rfl hp hact) (isHeld_of_bound? (bound?_of_findEntity hp))
      (adopts_of_addParameter h)
  · obtain ⟨t, ht, h⟩ := bind_eq_ok_iff.1 (Option.some.inj h)
    exact .houses (handedOver_call hr rfl ht hact) (isHeld_of_bound? (bound?_of_findEntity ht))
      (hg.of_bound? (bound?_of_find hr)) (houses_of_addType h)
  · cases h; exact .same (.freezeUnit g _)
  · cases h; exact .same (.modifySink g _ _)
  · cases h; exact .same (.modifySink g _ _)
  · cases h; exact .same (.modifySink g _ _)
  · cases h; exact .same (.modifySink g _ _)
  · cases h

theorem relinks_call {s : String} {r : Ref} (hr : find g s = .ok r) (c : Call) :
    Relinks g (.call s c) (call g r c).1 := by
  rw [call.eq_def]
  split
  next e =>
    split
    · exact .same (.packageName g e)
    · exact .same (.refl g)
  next e =>
    split
    · exact .same (.packageName g e)
    · exact .same (.refl g)
  next i h =>
    split
    · exact .same (.refl g)
    next u hu => exact .registers i (isHeld_of_bound? (bound?_of_findUnit hu))
  next =>
    split
    next h => exact relinks_act hg hr h
    next => exact .same (.refl g)
    next => split <;> exact .same (.refl g)

omit hg in
theorem relinks_hold (s lib n : String) :
    Relinks g (.hold s lib n) (step g (.hold s lib n)).1 := by
  rcases step_hold g s lib n with h | h | ⟨r, p, hr, hp, h⟩
  · rw [h]
    exact .same (.refl g)
  · rw [h]
    exact .drops s
  · rw [h]
    exact .holds s ⟨r, isHeld_of_bound? (bound?_of_find hr), (n, p), hp, rfl⟩

/-- What a step does to the links between objects. -/
theorem relinks_step {s : Step} (hs : s.makesBare = true) : Relinks g s (step g s).1 := by
  cases s with
  | new s o => exact relinks_make hg s hs
  | set s a =>
    refine relinks_withRef fun r _ ↦ ?_
    split
    next h => exact relinks_assign hg h
    next => exact .same (.refl g)
    next => exact .same (.refl g)
  | call s c => exact relinks_withRef fun r hr ↦ relinks_call hg hr c
  | drop s => exact .drops s
  | hold s lib n => exact relinks_hold s lib n
  | get | render | describe | «show» => exact relinks_withRef fun _ _ ↦ .same (.refl g)
  | _ => exact .same (.refl g)

end

/-- However a graph has come about, it mentions only objects that it has. -/
theorem closed_run {ss : List Step} (hs : ∀ s ∈ ss, s.makesBare = true) (hg : g.Closed) :
    (run g ss).1.Closed := by
  induction ss generalizing g with
  | nil => exact hg
  | cons s ss ih =>
    obtain ⟨h, hs⟩ := List.forall_mem_cons.1 hs
    exact ih hs ((relinks_step hg h).closed hg)

end JavaOutline.Session
