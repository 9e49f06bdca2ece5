import JavaOutline.Proofs.Graph.Liveness
import JavaOutline.Proofs.Graph.Owners
import JavaOutline.Proofs.Graph.Sources

/-! # A method that is given up

Making a method takes up its parameters one by one.  If one of them refuses, then nothing holds the
method, and all that is left of it is that the parameters before refer to it.  So every object looks
as it did before (`Graph.LooksAlike`), but for the parents of those parameters, which have
none. -/

namespace JavaOutline.Graph

variable {g g' g'' : Graph} {o e : EntityId} {es : List EntityId}

/-- Every object of the first graph looks the same in the second: its attributes, its members, what
it refers to, whether it is frozen, and the source that is found for it. -/
structure LooksAlike (g g' : Graph) : Prop where
  handles : g'.handles = g.handles
  units : g'.units = g.units
  packages : g'.packages = g.packages
  registries : g'.registries = g.registries
  sinks : g'.sinks = g.sinks
  length : g.entities.length ≤ g'.entities.length
  header : ∀ e < g.entities.length, (g'.entity e).header = (g.entity e).header
  form : ∀ e < g.entities.length, (g'.entity e).form = (g.entity e).form
  frozen : ∀ e < g.entities.length, (g'.entity e).frozen = (g.entity e).frozen
  live : ∀ e < g.entities.length, g'.isLive e = g.isLive e
  parent : ∀ e < g.entities.length, g'.parent? e = g.parent? e
  source : ∀ e < g.entities.length, g'.source e = g.source e

namespace LooksAlike

theorem refl (g : Graph) : LooksAlike g g :=
  ⟨rfl, rfl, rfl, rfl, rfl, Nat.le_refl _, fun _ _ ↦ rfl, fun _ _ ↦ rfl, fun _ _ ↦ rfl,
    fun _ _ ↦ rfl, fun _ _ ↦ rfl, fun _ _ ↦ rfl⟩

theorem trans (h : LooksAlike g g') (h' : LooksAlike g' g'') : LooksAlike g g'' where
  handles := h'.handles.trans h.handles
  units := h'.units.trans h.units
  packages := h'.packages.trans h.packages
  registries := h'.registries.trans h.registries
  sinks := h'.sinks.trans h.sinks
  length := Nat.le_trans h.length h'.length
  header e he := (h'.header e (Nat.lt_of_lt_of_le he h.length)).trans (h.header e he)
  form e he := (h'.form e (Nat.lt_of_lt_of_le he h.length)).trans (h.form e he)
  frozen e he := (h'.frozen e (Nat.lt_of_lt_of_le he h.length)).trans (h.frozen e he)
  live e he := (h'.live e (Nat.lt_of_lt_of_le he h.length)).trans (h.live e he)
  parent e he := (h'.parent e (Nat.lt_of_lt_of_le he h.length)).trans (h.parent e he)
  source e he := (h'.source e (Nat.lt_of_lt_of_le he h.length)).trans (h.source e he)

end LooksAlike

/-- Objects look alike if the entities do and have the same parents; then their sources are found
alike as well. -/
theorem looksAlike_of_parents (hg : g.Closed) (hrest : g' = { g with entities := g'.entities })
    (hlen : g.entities.length ≤ g'.entities.length)
    (hh : ∀ e < g.entities.length, (g'.entity e).header = (g.entity e).header)
    (hf : ∀ e < g.entities.length, (g'.entity e).form = (g.entity e).form)
    (hz : ∀ e < g.entities.length, (g'.entity e).frozen = (g.entity e).frozen)
    (hl : ∀ e < g.entities.length, g'.isLive e = g.isLive e)
    (hp : ∀ e < g.entities.length, g'.parent? e = g.parent? e) : LooksAlike g g' := by
  have hunit : g'.unitIsLive = g.unitIsLive :=
    unitIsLive_congr (by rw [hrest]) fun r ↦ by rw [hrest]; rfl
  have hsame : SameParents g g' := by
    refine ⟨hp, fun e he ↦ ?_, fun e he ↦ by rw [hh e he], fun e he ↦ by rw [hf e he]⟩
    rw [ownUnit, parentUnit?, hf e he, hh e he, hunit, ownUnit, parentUnit?]
  refine ⟨?_, ?_, ?_, ?_, ?_, hlen, hh, hf, hz, hl, hp,
    fun e he ↦ hsame.source hg hlen he⟩ <;> rw [hrest]

/-! ## Forgotten parents -/

/-- The graph in which some entities have lost their parents. -/
def orphaned (g : Graph) (es : List EntityId) : Graph :=
  { g with entities :=
      g.entities.mapIdx fun e o ↦ if e ∈ es then { o with parent := none } else o }

theorem entity_orphaned (g : Graph) (es : List EntityId) (e : EntityId) :
    (g.orphaned es).entity e =
      if e ∈ es then { g.entity e with parent := none } else g.entity e := by
  rw [entity, orphaned, List.getD_eq_getElem?_getD, List.getElem?_mapIdx, entity,
    List.getD_eq_getElem?_getD]
  cases g.entities[e]? with
  | some o => rfl
  | none => split <;> rfl

theorem orphaned_nil (g : Graph) : g.orphaned [] = g := by
  have h : g.entities.mapIdx (fun e o ↦ if e ∈ ([] : List EntityId) then
      { o with parent := none } else o) = g.entities := by
    rw [List.mapIdx_eq_iff]
    intro e
    cases g.entities[e]? <;> simp
  rw [orphaned, h]

theorem entities_length_orphaned (g : Graph) (es : List EntityId) :
    (g.orphaned es).entities.length = g.entities.length := List.length_mapIdx

section

variable (g) (es)

theorem header_orphaned (e : EntityId) :
    ((g.orphaned es).entity e).header = (g.entity e).header := by
  rw [entity_orphaned]
  split <;> rfl

theorem form_orphaned (e : EntityId) : ((g.orphaned es).entity e).form = (g.entity e).form := by
  rw [entity_orphaned]
  split <;> rfl

theorem frozen_orphaned (e : EntityId) :
    ((g.orphaned es).entity e).frozen = (g.entity e).frozen := by
  rw [entity_orphaned]
  split <;> rfl

theorem parent_orphaned (e : EntityId) :
    ((g.orphaned es).entity e).parent = if e ∈ es then none else (g.entity e).parent := by
  rw [entity_orphaned]
  split <;> rfl

end

theorem closed_orphaned (hg : g.Closed) (es : List EntityId) : (g.orphaned es).Closed := by
  refine hg.of_entities rfl (entities_length_orphaned g es) fun e ↦ ⟨?_, fun p hp ↦ ?_, ?_⟩
  · rw [form_orphaned]
    exact (hg.entities e).members
  · rw [parent_orphaned] at hp
    split at hp
    · cases hp
    · exact (hg.entities e).parent p hp
  · rw [form_orphaned]
    exact (hg.entities e).unit

theorem isLive_orphaned (g : Graph) (es : List EntityId) : (g.orphaned es).isLive = g.isLive :=
  isLive_congr (isRoot_congr rfl (fun _ ↦ rfl) (fun _ ↦ rfl) fun _ ↦ rfl)
    fun e ↦ by rw [form_orphaned]

theorem parent?_orphaned (g : Graph) (es : List EntityId) (e : EntityId) :
    (g.orphaned es).parent? e = if e ∈ es then none else g.parent? e := by
  rw [parent?, parent_orphaned, isLive_orphaned]
  split <;> rfl

/-- Entities look alike without their parents if they had none that was live. -/
theorem looksAlike_orphaned (hg : g.Closed) (h : ∀ e ∈ es, g.parent? e = none) :
    LooksAlike g (g.orphaned es) := by
  refine looksAlike_of_parents hg rfl (entities_length_orphaned g es).ge
    (fun e _ ↦ header_orphaned ..) (fun e _ ↦ form_orphaned ..) (fun e _ ↦ frozen_orphaned ..)
    (fun e _ ↦ congrFun (isLive_orphaned g es) e) fun e _ ↦ ?_
  rw [parent?_orphaned]
  split
  next he => rw [h e he]
  next => rfl

/-! ## Dead owners -/

/-- What an object that is not live takes up makes no difference to what is live. -/
theorem isLiveWithin_of_dead (hrest : g' = { g with entities := g'.entities })
    (hm : ∀ d, d ≠ o → (g'.entity d).form.members = (g.entity d).form.members)
    (hr : g.isRoot o = false) (ho : ∀ d, o ∉ (g.entity d).form.members) (n : Nat) :
    g'.isLiveWithin n o = false ∧ ∀ e, g'.isLiveWithin n e = g.isLiveWithin n e := by
  have hroot : g'.isRoot = g.isRoot := by
    rw [hrest]
    exact isRoot_congr rfl (fun _ ↦ rfl) (fun _ ↦ rfl) fun _ ↦ rfl
  have hdead (n : Nat) : g.isLiveWithin n o = false := by
    rw [Bool.eq_false_iff]
    intro h
    cases n with
    | zero => exact absurd h (by rw [isLiveWithin, hr]; exact Bool.false_ne_true)
    | succ n =>
      rcases isLiveWithin_succ_iff.1 h with h | ⟨d, hd, -⟩
      · rw [hr] at h
        cases h
      · exact ho d hd
  have hsame : ∀ e, g'.isLiveWithin n e = g.isLiveWithin n e := by
    induction n with
    | zero => exact fun e ↦ congrFun hroot e
    | succ n ih =>
      intro e
      rw [Bool.eq_iff_iff, isLiveWithin_succ_iff, isLiveWithin_succ_iff, hroot]
      refine or_congr_right (exists_congr fun d ↦ ?_)
      rw [ih]
      by_cases hd : d = o
      · rw [hd, hdead n]
        simp
      · rw [hm d hd]
  exact ⟨by rw [hsame, hdead], hsame⟩

/-- A method that is just being made is held by nothing. -/
theorem isRoot_withMethod (hg : g.Closed) (header : Header) (head : MethodHead) :
    (g.withMethod header head).isRoot g.entities.length = false := by
  rw [(sameLinks_withMethod g header head).isRoot, Bool.eq_false_iff]
  exact fun h ↦ Nat.lt_irrefl _ (hg.lt_of_isRoot h)

theorem not_mem_members_withMethod (hg : g.Closed) (header : Header) (head : MethodHead)
    (d : EntityId) :
    g.entities.length ∉ ((g.withMethod header head).entity d).form.members := by
  rw [(sameLinks_withMethod g header head).members]
  exact fun h ↦ Nat.lt_irrefl _ ((hg.entities d).members _ h)

/-- Every object looks as it did before the method was made, but for the parents of the parameters
that it has taken up. -/
theorem looksAlike_of_adoptsAll (hg : g.Closed) {header : Header} {head : MethodHead}
    (h : AdoptsAll g.entities.length (g.withMethod header head) es g') :
    LooksAlike (g.orphaned es) g' := by
  have hsame := sameLinks_withMethod g header head
  have hne {e : EntityId} (he : e < g.entities.length) : e ≠ g.entities.length := Nat.ne_of_lt he
  have hold {e : EntityId} (he : e < g.entities.length) :
      (g.withMethod header head).entity e = g.entity e := entity_withMethod_of_lt header head he
  have hdead := isLiveWithin_of_dead h.rest (fun d hd ↦ by rw [h.form hd])
    (isRoot_withMethod hg header head) (not_mem_members_withMethod hg header head) 2
  have hlive (e : EntityId) : g'.isLive e = g.isLive e := by
    rw [← hsame.isLive]
    exact hdead.2 e
  refine looksAlike_of_parents (closed_orphaned hg es) ?_ ?_ (fun e he ↦ ?_) (fun e he ↦ ?_)
    (fun e he ↦ ?_) (fun e he ↦ ?_) fun e he ↦ ?_
  · rw [h.rest]
    rfl
  · rw [entities_length_orphaned, h.length]
    exact hsame.entities
  all_goals rw [entities_length_orphaned] at he
  · rw [h.header, hold he, header_orphaned]
  · rw [h.form (hne he), hold he, form_orphaned]
  · rw [h.frozen, hold he, frozen_orphaned]
  · rw [hlive, isLive_orphaned]
  · rw [parent?_orphaned, parent?, h.parent, hold he, funext hlive]
    split
    · rw [Option.filter_some, ← hlive, isLive, hdead.1]
      rfl
    · rfl

end JavaOutline.Graph
