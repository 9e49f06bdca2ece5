import JavaOutline.Proofs.Graph.Freezing
import JavaOutline.Proofs.Outcome
import JavaOutline.Session.Run

/-! # Frozen objects in a session

A session whose assignments go through setters never changes what is frozen, whatever else it does:
each step proceeds (`Graph.Proceeds`), and so does every run.  On a frozen object each operation
that would change it is refused, and nothing changes. -/

namespace JavaOutline.Session

open JavaOutline JavaOutline.Graph

/-! ## Ordinary steps -/

/-- Whether an assignment leaves the plain attributes of declarations, units and packages alone: it
goes through a setter, or is about the layout of a sink. -/
def Assignment.isOrdinary : Assignment → Bool
  | .modifiers _ | .comment _ | .tags _ | .parent _ => true
  | .indentation _ | .lineEnd _ | .depth _ => true
  | _ => false

/-- Whether a step makes objects without members and assigns no plain attribute. -/
def Step.isOrdinary : Step → Bool
  | .new _ (.entity _ form) => form.members.isEmpty
  | .set _ a => a.isOrdinary
  | _ => true

variable {g g' : Graph}

/-! ## What handles hold -/

theorem has_of_find (hg : g.Sound) {s : String} {r : Ref} (h : find g s = .ok r) :
    g.Has r := by
  rw [find] at h
  split at h
  next r' hs =>
    cases h
    obtain ⟨l₁, l₂, hl, -⟩ := List.lookup_eq_some_iff.1 hs
    exact hg.handles (s, r) (hl ▸ by simp)
  next => cases h

theorem lt_of_findUnit (hg : g.Sound) {s : String} {u : UnitId} (h : findUnit g s = .ok u) :
    u < g.units.length := by
  obtain ⟨r, hr, h⟩ := bind_eq_ok_iff.1 h
  split at h
  next v => cases h; exact has_of_find hg hr
  next => cases h

/-! ## Steps -/

theorem proceeds_bind {s : String} {r : Ref} (hr : g.Has r) : Proceeds g (g.bind s r) :=
  .of_objects_eq rfl rfl (fun _ _ ↦ .inl) fun p hp ↦ by
    rcases mem_handles_bind hp with hp | hp
    · exact .inl hp
    · exact .inr (by rwa [hp])

theorem proceeds_drop (s : String) : Proceeds g (g.drop s) :=
  .of_objects_eq rfl rfl (fun _ _ ↦ .inl) fun _ hp ↦ .inl (List.mem_of_mem_filter hp)

theorem proceeds_modifySink (s : SinkId) (f : Sink → Sink) : Proceeds g (g.modifySink s f) :=
  .of_objects_eq rfl rfl (fun _ _ ↦ .inl) fun _ ↦ .inl

theorem proceeds_make (s : String) {o : NewObject} (ho : (Step.new s o).isOrdinary = true) :
    Proceeds g (make g s o).1 := by
  cases o with
  | entity header form =>
    have hm : form.members = [] := List.isEmpty_iff.1 ho
    have he : (g.addEntity { header, form }).2.Has (.entity g.entities.length) := by
      simp [Has, addEntity]
    exact .trans (.addEntity hm) (proceeds_bind he)
  | method header head handles =>
    rw [make]
    split
    next => exact .refl g
    next ps _ =>
      have hn := Proceeds.newMethod g header head ps
      split
      next g₁ m hm =>
        rw [hm] at hn
        exact hn.trans (proceeds_bind (has_of_newMethod hm))
      next g₁ f hm =>
        rw [hm] at hn
        exact hn
  | unit path package imports =>
    have hn : Proceeds g { g with units := g.units ++ [{ path, package, imports }] } :=
      .addUnit rfl rfl
    exact hn.trans (proceeds_bind (by simp [Has]))
  | package name =>
    have hn : Proceeds g { g with packages := g.packages ++ [{ name }] } :=
      .of_objects_eq rfl rfl (fun _ _ ↦ .inl) fun _ ↦ .inl
    exact hn.trans (proceeds_bind trivial)
  | registry =>
    have hn : Proceeds g { g with registries := g.registries ++ [{}] } := by
      refine .of_objects_eq rfl rfl (fun r u hu ↦ .inl ?_) fun _ ↦ .inl
      rwa [registry, registryObject_addRegistry] at hu
    exact hn.trans (proceeds_bind trivial)
  | sink unit lineEnd =>
    have hn : Proceeds g { g with sinks := g.sinks ++ [{ unit, lineEnd }] } :=
      .of_objects_eq rfl rfl (fun _ _ ↦ .inl) fun _ ↦ .inl
    exact hn.trans (proceeds_bind trivial)
  | tag t => exact proceeds_bind trivial

/-- What only one kind of entity has is a plain attribute. -/
theorem assignForm?_eq_none {a : Assignment} (ha : a.isOrdinary = true) (f : Form) :
    assignForm? g f a = none := by
  cases a <;> cases ha <;> cases f <;> rfl

theorem proceeds_assignEntity {e : EntityId} {a : Assignment} (ha : a.isOrdinary = true)
    (h : assignEntity? g e a = some (.ok g')) : Proceeds g g' := by
  have hform := assignForm?_eq_none (g := g) ha (g.entity e).form
  cases a with
  | modifiers ms => exact .setModifiers (Option.some.inj h)
  | comment c => exact .setComment (Option.some.inj h)
  | tags ts => exact .setTags (Option.some.inj h)
  | parent s =>
    obtain ⟨p, -, h⟩ := bind_eq_ok_iff.1 (Option.some.inj h)
    exact .setParent h
  | name => cases ha
  | line => cases ha
  | _ =>
    change (assignForm? g (g.entity e).form _).map _ = _ at h
    rw [hform] at h
    cases h

theorem proceeds_assign {r : Ref} {a : Assignment} (ha : a.isOrdinary = true)
    (h : assign? g r a = some (.ok g')) : Proceeds g g' := by
  rw [assign?.eq_def] at h
  split at h
  · exact proceeds_assignEntity ha h
  · cases ha
  · cases ha
  · cases ha
  · cases ha
  · cases ha
  · cases ha
  · cases h
    exact proceeds_modifySink _ _
  · cases h
    exact proceeds_modifySink _ _
  · cases h
    exact proceeds_modifySink _ _
  · cases h

theorem proceeds_act {r : Ref} {c : Call} (h : act? g r c = some (.ok g')) : Proceeds g g' := by
  rw [act?.eq_def] at h
  split at h
  · exact .setModifiers (Option.some.inj h)
  · exact .setComment (Option.some.inj h)
  · exact .setTags (Option.some.inj h)
  · obtain ⟨p, -, h⟩ := bind_eq_ok_iff.1 (Option.some.inj h)
    exact .setParent h
  · cases h
    exact .freeze g _
  · obtain ⟨u, -, h⟩ := bind_eq_ok_iff.1 (Option.some.inj h)
    exact .setParentUnit h
  · obtain ⟨f, -, h⟩ := bind_eq_ok_iff.1 (Option.some.inj h)
    exact .addField h
  · obtain ⟨m, -, h⟩ := bind_eq_ok_iff.1 (Option.some.inj h)
    exact .addMethod h
  · obtain ⟨p, -, h⟩ := bind_eq_ok_iff.1 (Option.some.inj h)
    exact .addParameter h
  · obtain ⟨t, -, h⟩ := bind_eq_ok_iff.1 (Option.some.inj h)
    exact .addType h
  · cases h
    exact .freezeUnit g _
  · cases h
    exact proceeds_modifySink _ _
  · cases h
    exact proceeds_modifySink _ _
  · cases h
    exact proceeds_modifySink _ _
  · cases h
    exact proceeds_modifySink _ _
  · cases h

theorem proceeds_call (r : Ref) (c : Call) : Proceeds g (call g r c).1 := by
  rw [call.eq_def]
  split
  next e => split <;> [exact .packageName g e; exact .refl g]
  next e => split <;> [exact .qualifiedName g e; exact .refl g]
  next i s =>
    split
    · exact .refl g
    next u hu =>
      intro hg
      exact Proceeds.addToRegistry i (lt_of_findUnit hg hu) hg
  next =>
    split
    next h => exact proceeds_act h
    next => exact .refl g
    next => split <;> exact .refl g

theorem proceeds_withRef {s : String} {f : Ref → Graph × Reply}
    (hf : ∀ r, Proceeds g (f r).1) : Proceeds g (withRef g s f).1 := by
  rw [withRef]
  split
  · exact hf _
  · exact .refl g

/-- What becomes of a handle that is to hold a package of a registry. -/
theorem step_hold (g : Graph) (s lib n : String) :
    (step g (.hold s lib n)).1 = g ∨ (step g (.hold s lib n)).1 = g.drop s ∨
      ∃ r p, find g lib = .ok (.registry r) ∧ (n, p) ∈ (g.registryObject r).packages ∧
        (step g (.hold s lib n)).1 = g.bind s (.package p) := by
  rw [step, withRef]
  split
  next r hr =>
    split
    next r =>
      rw [hold]
      split
      next p hp => exact .inr (.inr ⟨r, p, hr, mem_of_lookup hp, rfl⟩)
      next => exact .inr (.inl rfl)
    next => exact .inl rfl
  next => exact .inl rfl

theorem proceeds_hold (s lib n : String) : Proceeds g (step g (.hold s lib n)).1 := by
  rcases step_hold g s lib n with h | h | ⟨r, p, -, -, h⟩
  · rw [h]
    exact .refl g
  · rw [h]
    exact proceeds_drop s
  · rw [h]
    exact proceeds_bind trivial

/-- Each ordinary step keeps the invariant and leaves alone what is frozen. -/
theorem proceeds_step {s : Step} (hs : s.isOrdinary = true) : Proceeds g (step g s).1 := by
  cases s with
  | new s o => exact proceeds_make s hs
  | set s a =>
    refine proceeds_withRef fun r ↦ ?_
    split
    next h => exact proceeds_assign hs h
    next => exact .refl g
    next => exact .refl g
  | call s c => exact proceeds_withRef fun r ↦ proceeds_call r c
  | drop s => exact proceeds_drop s
  | hold s lib n => exact proceeds_hold s lib n
  | get | render | describe | «show» => exact proceeds_withRef fun _ ↦ .refl g
  | _ => exact .refl g

/-- So does a run of them. -/
theorem proceeds_run {ss : List Step} (hs : ∀ s ∈ ss, s.isOrdinary = true) :
    Proceeds g (run g ss).1 := by
  induction ss generalizing g with
  | nil => exact .refl g
  | cons s ss ih =>
    obtain ⟨h, hs⟩ := List.forall_mem_cons.1 hs
    exact (proceeds_step h).trans (ih hs)

/-! ## Refusals -/

/-- Whether an object is frozen; packages, registries, sinks and tags never are. -/
def isFrozen (g : Graph) : Ref → Bool
  | .entity e => (g.entity e).frozen
  | .unit u => (g.unit u).frozen
  | _ => false

/-- The operations that would change an object: its setters, called or assigned through, and the
adding of a member or a type, each with an argument that can be found. -/
inductive Changes (g : Graph) (s : String) : Ref → Step → Prop where
  | setModifiers (e ms) : Changes g s (.entity e) (.call s (.setModifiers ms))
  | setComment (e c) : Changes g s (.entity e) (.call s (.setComment c))
  | setTags (e ts) : Changes g s (.entity e) (.call s (.setTags ts))
  | setParent (e) {h p} : findMaybe (findEntity g) h = .ok p →
      Changes g s (.entity e) (.call s (.setParent h))
  | setParentUnit {e h u} : (g.entity e).form.kind = .type → findMaybe (findUnit g) h = .ok u →
      Changes g s (.entity e) (.call s (.setParentUnit h))
  | addField {e h f} : (g.entity e).form.kind = .type → findEntity g h = .ok f →
      Changes g s (.entity e) (.call s (.addField h))
  | addMethod {e h m} : (g.entity e).form.kind = .type → findEntity g h = .ok m →
      Changes g s (.entity e) (.call s (.addMethod h))
  | addParameter {e h p} : (g.entity e).form.kind = .method → findEntity g h = .ok p →
      Changes g s (.entity e) (.call s (.addParameter h))
  | addType (u) {h t} : findEntity g h = .ok t → Changes g s (.unit u) (.call s (.addType h))
  | assignModifiers (e ms) : Changes g s (.entity e) (.set s (.modifiers ms))
  | assignComment (e c) : Changes g s (.entity e) (.set s (.comment c))
  | assignTags (e ts) : Changes g s (.entity e) (.set s (.tags ts))
  | assignParent (e) {h p} : findMaybe (findEntity g) h = .ok p →
      Changes g s (.entity e) (.set s (.parent h))

theorem call_of_refused {r : Ref} {c : Call} {f : Fault} (h : act? g r c = some (.error f)) :
    call g r c = (g, { result := .error f }) := by
  rw [call.eq_def]
  split
  · cases h
  · cases h
  · cases h
  · rw [h]

theorem step_call_of_refused {s : String} {r : Ref} {c : Call} (hs : g.bound? s = some r)
    (h : ∃ name property, act? g r c = some (.error (.frozen name property))) :
    ∃ name property, step g (.call s c) = (g, { result := .error (.frozen name property) }) := by
  obtain ⟨name, property, h⟩ := h
  exact ⟨name, property, by simp only [step, withRef, find, hs, call_of_refused h]⟩

theorem step_set_of_refused {s : String} {r : Ref} {a : Assignment} (hs : g.bound? s = some r)
    (h : ∃ name property, assign? g r a = some (.error (.frozen name property))) :
    ∃ name property, step g (.set s a) = (g, { result := .error (.frozen name property) }) := by
  obtain ⟨name, property, h⟩ := h
  exact ⟨name, property, by simp only [step, withRef, find, hs, h]⟩

/-- Whatever would change a frozen object is refused, and the graph stays as it is. -/
theorem step_of_changes {s : String} {r : Ref} {st : Step} (hs : g.bound? s = some r)
    (hr : isFrozen g r = true) (hc : Changes g s r st) :
    ∃ name property, step g st = (g, { result := .error (.frozen name property) }) := by
  cases hc with
  | setModifiers e ms =>
    exact step_call_of_refused hs ⟨_, _, congrArg some (checkMutable_bind hr _ _)⟩
  | setComment e c =>
    exact step_call_of_refused hs ⟨_, _, congrArg some (checkMutable_bind hr _ _)⟩
  | setTags e ts =>
    exact step_call_of_refused hs ⟨_, _, congrArg some (checkMutable_bind hr _ _)⟩
  | setParent e hp =>
    exact step_call_of_refused hs
      ⟨_, _, congrArg some ((bind_of_eq_ok hp _).trans (checkMutable_bind hr _ _))⟩
  | setParentUnit hk hu =>
    exact step_call_of_refused hs
      ⟨_, _, congrArg some ((bind_of_eq_ok hu _).trans (setParentUnit_of_frozen hr hk _))⟩
  | addField hk hf =>
    exact step_call_of_refused hs
      ⟨_, _, congrArg some ((bind_of_eq_ok hf _).trans (addField_of_frozen hr hk _))⟩
  | addMethod hk hm =>
    exact step_call_of_refused hs
      ⟨_, _, congrArg some ((bind_of_eq_ok hm _).trans (addMethod_of_frozen hr hk _))⟩
  | addParameter hk hp =>
    exact step_call_of_refused hs
      ⟨_, _, congrArg some ((bind_of_eq_ok hp _).trans (addParameter_of_frozen hr hk _))⟩
  | addType u ht =>
    exact step_call_of_refused hs
      ⟨_, _, congrArg some ((bind_of_eq_ok ht _).trans (addType_of_frozen hr _))⟩
  | assignModifiers e ms =>
    exact step_set_of_refused hs ⟨_, _, congrArg some (checkMutable_bind hr _ _)⟩
  | assignComment e c =>
    exact step_set_of_refused hs ⟨_, _, congrArg some (checkMutable_bind hr _ _)⟩
  | assignTags e ts =>
    exact step_set_of_refused hs ⟨_, _, congrArg some (checkMutable_bind hr _ _)⟩
  | assignParent e hp =>
    exact step_set_of_refused hs
      ⟨_, _, congrArg some ((bind_of_eq_ok hp _).trans (checkMutable_bind hr _ _))⟩

/-! ## Runs -/

theorem answer?_block (g : Graph) (e : EntityId) (unit : String) :
    answer? g (.entity e) (.block unit) =
      if (g.entity e).form.kind = .parameter then none
      else (g.writeEntity? e).map fun w ↦ .ok (.text (w { unit }).text) := by
  rw [answer?, entityAnswer?.eq_def]
  dsimp only
  cases (g.entity e).form <;> rfl

/-- The text of a frozen entity is the same later on. -/
theorem answer?_block_of_keeps (h : Keeps g g') (hg : g.FrozenBelow) {e : EntityId}
    (he : (g.entity e).frozen = true) (unit : String) :
    answer? g' (.entity e) (.block unit) = answer? g (.entity e) (.block unit) := by
  have hkind : (g'.entity e).form.kind = (g.entity e).form.kind := by
    rw [← Form.kind_content, h.content e he, Form.kind_content]
  rw [answer?_block, answer?_block, hkind, h.writeEntity? hg he]

theorem isFrozen_step_freeze (hg : g.Sound) {s : String} {r : Ref} (hs : g.bound? s = some r)
    (hr : (∃ e, r = .entity e) ∨ ∃ u, r = .unit u) :
    isFrozen (step g (.call s .freeze)).1 r = true := by
  have hf : find g s = .ok r := by rw [find, hs]
  have hr' := has_of_find hg hf
  rw [step, withRef, hf]
  obtain ⟨e, rfl⟩ | ⟨u, rfl⟩ := hr
  · exact frozen_freeze_iff.2 (.inr ⟨mem_descendants_iff.2 (.inl rfl), hr'⟩)
  · exact frozen_freezeUnit hr'

/-- Freezing reaches everything below and is for good: in every state of a session, what lies below
something frozen is frozen, what would change something frozen is refused, and later states show it
as it is now. -/
theorem run_freezes {steps more : List Step} (hs : ∀ s ∈ steps, s.isOrdinary = true)
    (hm : ∀ s ∈ more, s.isOrdinary = true) {g g' : Graph} (hg : (run {} steps).1 = g)
    (hg' : (run g more).1 = g') :
    g.FrozenBelow ∧
      (∀ s r, g.bound? s = some r → ((∃ e, r = .entity e) ∨ ∃ u, r = .unit u) →
        isFrozen (step g (.call s .freeze)).1 r = true) ∧
      (∀ s r st, g.bound? s = some r → isFrozen g r = true → Changes g s r st →
        ∃ name property, step g st = (g, { result := .error (.frozen name property) })) ∧
      (∀ e, (g.entity e).frozen = true →
        (g'.entity e).frozen = true ∧ (g'.entity e).header = (g.entity e).header ∧
          (g'.entity e).form.content = (g.entity e).form.content ∧
          ∀ unit, answer? g' (.entity e) (.block unit) = answer? g (.entity e) (.block unit)) ∧
      ∀ u, (g.unit u).frozen = true →
        g'.unit u = g.unit u ∧
          ∀ unit, answer? g' (.unit u) (.block unit) = answer? g (.unit u) (.block unit) := by
  obtain ⟨hsound, -⟩ := proceeds_run hs sound_empty
  rw [hg] at hsound
  obtain ⟨-, hkeeps⟩ := proceeds_run hm hsound
  rw [hg'] at hkeeps
  have hbelow := hsound.toFrozenBelow
  refine ⟨hbelow, fun s r ↦ isFrozen_step_freeze hsound, fun s r st ↦ step_of_changes,
    fun e he ↦ ⟨hkeeps.frozen e he, hkeeps.header e he, hkeeps.content e he, fun unit ↦ ?_⟩,
    fun u hu ↦ ⟨hkeeps.unit u hu, fun unit ↦ ?_⟩⟩
  · exact answer?_block_of_keeps hkeeps hbelow he unit
  · rw [answer?, answer?, hkeeps.unitValue hbelow hu]

/-- A registered unit with a type, a method and its parameter is frozen all the way down, its method
refuses another parameter, and its text stays when handles are dropped and names are looked up. -/
theorem run_freezes_registered :
    ∃ g g' : Graph, (run {} [
        .new "u" (.unit (some "A.java") (some "p") []),
        .new "t" (.entity { name := "A" } (.type {} [] [] none "")),
        .new "x" (.entity { name := "x" } (.parameter "int" false)),
        .new "y" (.entity { name := "y" } (.parameter "int" false)),
        .new "m" (.method { name := "f" } {} ["x"]),
        .call "t" (.addMethod "m"), .call "u" (.addType "t"),
        .new "lib" .registry, .call "lib" (.register "u")]).1 = g ∧
      (run g [.call "t" .qualifiedName, .set "x" (.comment (some "late")), .drop "u"]).1 = g' ∧
      (g.unit 0).frozen = true ∧ (g.entity 1).frozen = true ∧
      (∃ name property, step g (.call "m" (.addParameter "y")) =
        (g, { result := .error (.frozen name property) })) ∧
      answer? g' (.unit 0) (.block "  ") = answer? g (.unit 0) (.block "  ") := by
  refine ⟨_, _, rfl, rfl, ?_⟩
  generalize hg : (run {} _).1 = g
  generalize hg' : (run g _).1 = g'
  have hu : (g.unit 0).frozen = true := by rw [← hg]; decide +kernel
  obtain ⟨hbelow, -, hrefused, -, hunit⟩ := run_freezes (by decide) (by decide) hg hg'
  have hm : g.bound? "m" = some (.entity 3) := by rw [← hg]; decide +kernel
  have hmethod : (g.entity 3).form.kind = .method := by rw [← hg]; decide +kernel
  have ht : (g.entity 0).frozen = true :=
    hbelow.types 0 hu 0 (by rw [← hg]; decide +kernel)
  have hmf : (g.entity 3).frozen = true :=
    hbelow.members 0 ht 3 (by rw [← hg]; decide +kernel)
  have hx : (g.entity 1).frozen = true :=
    hbelow.members 3 hmf 1 (by rw [← hg]; decide +kernel)
  refine ⟨hu, hx, hrefused "m" (.entity 3) _ hm hmf ?_, (hunit 0 hu).2 "  "⟩
  exact .addParameter hmethod (p := 2) (by rw [← hg]; rfl)

end JavaOutline.Session
