import JavaOutline.Proofs.Graph.Ownership
import JavaOutline.Proofs.Session.References

/-! # Owners and parents in a session

In a session that hands nothing to a second owner and sets neither parents nor lists of members by
itself, what live owners list and what it refers to agree at every moment (`Session.run_ties`).  An
owner that disappears takes its side of the relation along, and a step that fails half-way leaves
parents that nobody sees: the method that they lead to is not live, and nothing brings it back. -/

namespace JavaOutline.Session

open JavaOutline JavaOutline.Graph

variable {g g' : Graph} {s : Step}

/-- The entity belongs to a live owner: an entity that has it as a member, or a unit. -/
def IsOwned (g : Graph) (e : EntityId) : Prop :=
  (∃ o, g.isLive o = true ∧ e ∈ (g.entity o).form.members) ∨
    ∃ u, g.unitIsLive u = true ∧ e ∈ (g.unit u).types

instance (g : Graph) (e : EntityId) : Decidable (IsOwned g e) :=
  decidable_of_iff
    ((∃ o < g.entities.length, g.isLive o = true ∧ e ∈ (g.entity o).form.members) ∨
      ∃ u < g.units.length, g.unitIsLive u = true ∧ e ∈ (g.unit u).types) <| by
    constructor
    · rintro (⟨o, -, h⟩ | ⟨u, -, h⟩)
      · exact .inl ⟨o, h⟩
      · exact .inr ⟨u, h⟩
    · rintro (⟨o, h⟩ | ⟨u, h⟩)
      · exact .inl ⟨o, lt_of_mem_members h.2, h⟩
      · exact .inr ⟨u, lt_of_mem_types h.2, h⟩

/-- Along these steps, nothing that belongs to an owner is handed to an owner again. -/
def HandsOverOnce : Graph → List Step → Prop
  | _, [] => True
  | g, s :: ss => ((handedOver g s).Nodup ∧ ∀ e ∈ handedOver g s, ¬ IsOwned g e) ∧
      HandsOverOnce (step g s).1 ss

instance decidableHandsOverOnce : (g : Graph) → (ss : List Step) → Decidable (HandsOverOnce g ss)
  | _, [] => inferInstanceAs (Decidable True)
  | g, s :: ss =>
    have := decidableHandsOverOnce (step g s).1 ss
    inferInstanceAs (Decidable (((handedOver g s).Nodup ∧ ∀ e ∈ handedOver g s, ¬ IsOwned g e) ∧
      HandsOverOnce (step g s).1 ss))

/-! ## One step -/

theorem isRoot_of_isHeld {e : EntityId} (h : g.isHeld (.entity e) = true) : g.isRoot e = true :=
  isRoot_iff.2 (.inl h)

/-- Nothing becomes live again, unless lists of members are assigned. -/
theorem Relinks.fades (h : Relinks g s g') (hs : s.assignsLinks = false) (hg : g.Closed) :
    Fades g g' := by
  cases h with
  | same h => exact h.fades
  | assignEntity h => rw [h] at hs; cases hs
  | assignTypes h => rw [h] at hs; cases hs
  | assignPackage h => rw [h] at hs; cases hs
  | adopts _ he h => exact .adopts h (isRoot_of_isHeld he)
  | houses _ ht _ h => exact .houses h (isRoot_of_isHeld ht)
  | registers i hu => exact .registers hg i (unitIsLive_iff.2 (.inl hu))
  | binds name h _ hnext => exact h.fades.bind name (.inl hnext)
  | makesMethod header head hheld h =>
    exact .withMethod h fun e he ↦ isRoot_of_isHeld (hheld e he)
  | bindsMethod name header head hheld h =>
    exact .bind (.withMethod h fun e he ↦ isRoot_of_isHeld (hheld e he)) name (.inl rfl)
  | drops name => exact .drop g name
  | holds name hp => exact (SameLinks.refl g).fades.bind name (.inr ⟨_, rfl, hp⟩)

/-- Agreement for some owners is kept if none of them has what is handed over. -/
theorem Relinks.tied {L LU : Nat → Prop} (h : Relinks g s g') (hs : s.assignsLinks = false)
    (hg : g.Closed) (hn : (handedOver g s).Nodup)
    (he : ∀ e ∈ handedOver g s, ∀ o, L o → e ∉ (g.entity o).form.members)
    (ht : ∀ t ∈ handedOver g s, ∀ u, LU u → t ∉ (g.unit u).types) (hT : Tied g L LU) :
    Tied g' L LU := by
  have hmethod (header : Header) (head : MethodHead) {g₁ : Graph}
      (h : AdoptsAll g.entities.length (g.withMethod header head) (handedOver g s) g₁) :
      Tied g₁ L LU := by
    have hsame := sameLinks_withMethod g header head
    refine (hT.same hg hsame).adoptsAll h hn fun e hmem o ho ↦ ?_
    rw [hsame.members]
    exact he e hmem o ho
  cases h with
  | same h => exact hT.same hg h
  | assignEntity h => rw [h] at hs; cases hs
  | assignTypes h => rw [h] at hs; cases hs
  | assignPackage h => rw [h] at hs; cases hs
  | adopts hover _ h => exact hT.adopts h (he _ (hover ▸ List.mem_singleton_self _))
  | houses hover _ hu h => exact hT.houses hu h (ht _ (hover ▸ List.mem_singleton_self _))
  | registers i _ => exact hT.registers hg i _
  | binds name h _ _ => exact (hT.same hg h).bind name _
  | makesMethod header head _ h => exact hmethod header head h
  | bindsMethod name header head _ h => exact (hmethod header head h).bind name _
  | drops name => exact hT.drop name
  | holds name _ => exact hT.bind name _

/-- One step keeps owners and parents in agreement.  What is new can only be seen afterwards, so the
step is shown to keep agreement for the live owners and the new ones together. -/
theorem tied_step (hb : s.makesBare = true) (hs : s.assignsLinks = false)
    (hn : (handedOver g s).Nodup) (ho : ∀ e ∈ handedOver g s, ¬ IsOwned g e) (hg : g.Closed)
    (hT : Tied g (g.isLive · = true) (g.unitIsLive · = true)) :
    Tied (step g s).1 ((step g s).1.isLive · = true) ((step g s).1.unitIsLive · = true) := by
  have h := relinks_step hg hb
  have hfades := h.fades hs hg
  refine (h.tied hs hg hn (fun e he o hL hmem ↦ ?_) (fun t ht u hL hmem ↦ ?_)
    (hT.extend hg)).mono (fun _ ↦ hfades.isLive) fun _ ↦ hfades.unitIsLive
  · rcases hL with hL | hL
    · exact ho e he (.inl ⟨o, hL, hmem⟩)
    · exact absurd (lt_of_mem_members hmem) (Nat.not_lt_of_le hL)
  · rcases hL with hL | hL
    · exact ho t ht (.inr ⟨u, hL, hmem⟩)
    · exact absurd (lt_of_mem_types hmem) (Nat.not_lt_of_le hL)

/-! ## Runs -/

theorem tied_run {ss : List Step} (hb : ∀ s ∈ ss, s.makesBare = true)
    (hs : ∀ s ∈ ss, s.assignsLinks = false) (ho : HandsOverOnce g ss) (hg : g.Closed)
    (hT : Tied g (g.isLive · = true) (g.unitIsLive · = true)) :
    Tied (run g ss).1 ((run g ss).1.isLive · = true) ((run g ss).1.unitIsLive · = true) := by
  induction ss generalizing g with
  | nil => exact hT
  | cons s ss ih =>
    obtain ⟨hbs, hb⟩ := List.forall_mem_cons.1 hb
    obtain ⟨hss, hs⟩ := List.forall_mem_cons.1 hs
    obtain ⟨⟨hn, hos⟩, ho⟩ := ho
    exact ih hb hs ho ((relinks_step hg hbs).closed hg) (tied_step hbs hss hn hos hg hT)

/-- Owners and parents agree in every state of a session that hands nothing to a second owner and
sets no parents and no lists of members by itself. -/
theorem run_ties {steps : List Step} (hb : ∀ s ∈ steps, s.makesBare = true)
    (hs : ∀ s ∈ steps, s.assignsLinks = false) (ho : HandsOverOnce {} steps) {g : Graph}
    (hg : (run {} steps).1 = g) :
    -- What a live owner lists has that owner as its parent.
    (∀ o, g.isLive o = true → ∀ e ∈ (g.entity o).form.members, g.parent? e = some o) ∧
      (∀ u, g.unitIsLive u = true → ∀ t ∈ (g.unit u).types, g.parentUnit? t = some u) ∧
      -- A parent that is there lists the entity once.
      (∀ e p, g.parent? e = some p → (g.entity p).form.members.count e = 1) ∧
      (∀ t u, g.parentUnit? t = some u → (g.unit u).types.count t = 1) ∧
      -- The source is found at the end of the chain of parents, or the last entity is named.
      (∀ e, ∃ d, Climbs g e d ∧
        (∀ u, g.parentUnit? d = some u → g.source e = .ok u) ∧
        (g.parentUnit? d = none → g.source e = .error (.detached (g.entity d).header.name))) ∧
      -- What a registry lists is found in a unit of that registry, with all below it.
      ∀ r, g.isHeld (.registry r) = true → ∀ t, registryLists (g.registry r) t = true →
        ∃ u ∈ (g.registry r).units, ∀ e ∈ g.descendants t, g.source e = .ok u := by
  have hclosed : g.Closed := hg ▸ closed_run hb .empty
  have hT : Tied g (g.isLive · = true) (g.unitIsLive · = true) :=
    hg ▸ tied_run hb hs ho .empty .empty
  refine ⟨fun o hlive e he ↦ ?_, fun u hlive t ht ↦ ?_, fun e p hp ↦ ?_, fun t u hu ↦ ?_,
    fun e ↦ ?_, fun r hr t ht ↦ ?_⟩
  · exact hT.parent?_of_mem_members hlive he
  · exact hT.parentUnit?_of_mem_types hlive ht
  · obtain ⟨hp, hlive⟩ := Option.filter_eq_some_iff.1 hp
    exact hT.once e p hp hlive
  · rw [parentUnit?_eq] at hu
    obtain ⟨hu, hlive⟩ := Option.filter_eq_some_iff.1 hu
    exact hT.onceInUnit t u hu hlive
  · obtain ⟨d, hd, hsource⟩ := hT.exists_climbs hclosed e
    refine ⟨d, hd, fun u hu ↦ ?_, fun hu ↦ ?_⟩
    · rw [hsource, ownUnit, hu]
    · rw [hsource, ownUnit, hu]
  · obtain ⟨u, hu, htu⟩ := hT.registered r t ht
    have hlive : g.unitIsLive u = true := unitIsLive_iff.2 (.inr ⟨r, hr, hu⟩)
    exact ⟨u, hu, fun e he ↦ hT.source_of_mem_descendants hclosed hlive htu he⟩

/-- A parameter loses its method and is handed to another, which then refuses a frozen one; next to
it a unit is registered and everything else let go of. -/
theorem run_ties_registered :
    ∃ g : Graph, (run {} [
        .new "u" (.unit (some "A.java") (some "p") []),
        .new "t" (.entity { name := "A" } (.type {} [] [] none "")),
        .new "f" (.entity { name := "f" } (.field "int" none)),
        .new "x" (.entity { name := "x" } (.parameter "int" false)),
        .new "m" (.method { name := "m" } {} ["x"]),
        .call "t" (.addField "f"), .call "t" (.addMethod "m"), .call "u" (.addType "t"),
        .new "y" (.entity { name := "y" } (.parameter "int" false)),
        .new "n" (.method { name := "n" } {} ["y"]), .drop "n",
        .new "z" (.entity { name := "z" } (.parameter "int" false)), .call "z" .freeze,
        .new "n" (.method { name := "n" } {} ["y", "z"]),
        .new "lib" .registry, .call "lib" (.register "u"),
        .drop "u", .drop "t", .drop "f", .drop "m", .drop "x"]).1 = g ∧
      g.parent? 4 = none ∧
      (∃ u ∈ (g.registry 0).units, ∀ e ∈ g.descendants 0, g.source e = .ok u) ∧
      ∃ d, Climbs g 4 d ∧
        (g.parentUnit? d = none → g.source 4 = .error (.detached (g.entity d).header.name)) := by
  refine ⟨_, rfl, ?_⟩
  generalize hg : (run {} _).1 = g
  obtain ⟨-, -, -, -, hsource, hregistered⟩ :=
    run_ties (by decide) (by decide) (by decide +kernel) hg
  obtain ⟨d, hd, -, hdetached⟩ := hsource 4
  refine ⟨by rw [← hg]; decide +kernel, ?_, d, hd, hdetached⟩
  exact hregistered 0 (by rw [← hg]; decide +kernel) 0 (by rw [← hg]; decide +kernel)

end JavaOutline.Session
