import JavaOutline.Proofs.Graph.References
import Mathlib.Combinatorics.Pigeonhole

/-! # Following parents

The source of an entity is found by following parents, and the number of steps is limited by the
number of entities only so that a circle of parents comes to an end.  In a closed graph the limit is
never felt otherwise (`Graph.sourceWithin_eq_source`): of so many steps two lead to the same entity,
so the chain goes round for ever.  Hence the source of an entity is what its parent passes on
(`Graph.source_eq`). -/

namespace JavaOutline.Graph

variable {g g' : Graph} {e p : EntityId} {n : Nat}

/-- The entity that is asked next, if the chain of parents does not end here. -/
def next? (g : Graph) (e : EntityId) : Option EntityId :=
  (g.parent? e).filter fun p ↦ (g.entity p).form.kind ≠ .type

/-- Where the chain of parents leads to after some steps. -/
def climb (g : Graph) : Nat → EntityId → Option EntityId
  | 0, e => some e
  | n + 1, e => (g.next? e).bind (g.climb n)

theorem climb_add (g : Graph) (m n : Nat) (e : EntityId) :
    g.climb (m + n) e = (g.climb m e).bind (g.climb n) := by
  induction m generalizing e with
  | zero => rw [Nat.zero_add, climb, Option.bind_some]
  | succ m ih =>
    rw [Nat.succ_add, climb, climb, Option.bind_assoc]
    exact congrArg _ (funext ih)

theorem parent?_lt (hg : g.Closed) (hp : p ∈ g.parent? e) : p < g.entities.length :=
  (hg.entities e).parent p (Option.mem_filter_iff.1 hp).1

theorem climb_lt (hg : g.Closed) (he : e < g.entities.length) (hp : g.climb n e = some p) :
    p < g.entities.length := by
  induction n generalizing e with
  | zero => exact Option.some.inj hp ▸ he
  | succ n ih =>
    obtain ⟨d, hd, hp⟩ := Option.bind_eq_some_iff.1 hp
    exact ih (parent?_lt hg (Option.mem_filter_iff.1 hd).1) hp

/-- If two steps lead to the same entity, then the chain goes round. -/
theorem isSome_climb_of_eq {i j : Nat} (hij : i < j) (h : g.climb i e = g.climb j e)
    (hlt : ∀ m < n, (g.climb m e).isSome = true) (hj : j ≤ n) : (g.climb n e).isSome = true := by
  obtain ⟨k, rfl⟩ := Nat.exists_eq_add_of_le hj
  rw [climb_add, ← h, ← climb_add]
  exact hlt (i + k) (Nat.add_lt_add_right hij k)

/-- Of more steps than there are entities two lead to the same entity. -/
theorem exists_climb_eq (hg : g.Closed) (he : e < g.entities.length)
    (h : (g.climb g.entities.length e).isSome = true) :
    ∃ i j, i < j ∧ j ≤ g.entities.length ∧ g.climb i e = g.climb j e := by
  have hshort (i : Nat) (hi : i ≤ g.entities.length) : ∃ p, g.climb i e = some p := by
    obtain ⟨k, hk⟩ := Nat.exists_eq_add_of_le hi
    rw [hk, climb_add] at h
    exact Option.isSome_iff_exists.1 (Option.isSome_of_isSome_bind h)
  obtain ⟨i, hi, j, hj, hij, heq⟩ : ∃ i ∈ Finset.range (g.entities.length + 1),
      ∃ j ∈ Finset.range (g.entities.length + 1), i ≠ j ∧
        (g.climb i e).getD 0 = (g.climb j e).getD 0 := by
    refine Finset.exists_ne_map_eq_of_card_lt_of_maps_to
      (t := Finset.range g.entities.length) (by simp) fun i hi ↦ ?_
    obtain ⟨p, hp⟩ := hshort i (Nat.lt_succ_iff.1 (Finset.mem_range.1 hi))
    rw [hp]
    exact Finset.mem_coe.2 (Finset.mem_range.2 (climb_lt hg he hp))
  have hi := Nat.lt_succ_iff.1 (Finset.mem_range.1 hi)
  have hj := Nat.lt_succ_iff.1 (Finset.mem_range.1 hj)
  have heq : g.climb i e = g.climb j e := by
    obtain ⟨p, hp⟩ := hshort i hi
    obtain ⟨q, hq⟩ := hshort j hj
    rw [hp, hq] at heq ⊢
    exact congrArg some heq
  rcases Nat.lt_or_gt_of_ne hij with hij | hij
  · exact ⟨i, j, hij, hj, heq⟩
  · exact ⟨j, i, hij, hi, heq.symm⟩

/-- A chain of parents with more steps than there are entities never ends. -/
theorem isSome_climb (hg : g.Closed) (he : e < g.entities.length)
    (h : (g.climb g.entities.length e).isSome = true) (n : Nat) : (g.climb n e).isSome = true := by
  obtain ⟨i, j, hij, hj, heq⟩ := exists_climb_eq hg he h
  induction n using Nat.strongRecOn with
  | ind n ih =>
    rcases Nat.lt_or_ge g.entities.length n with hn | hn
    · exact isSome_climb_of_eq hij heq ih (hj.trans hn.le)
    · obtain ⟨k, hk⟩ := Nat.exists_eq_add_of_le hn
      rw [hk, climb_add] at h
      exact Option.isSome_of_isSome_bind h

/-! ## The limit -/

theorem ownUnit_ne_endless (g : Graph) (e : EntityId) : g.ownUnit e ≠ .error .endless := by
  rw [ownUnit]
  split <;> exact nofun

theorem sourceWithin_of_none (h : g.parent? e = none) (n : Nat) :
    g.sourceWithin (n + 1) e = if (g.entity e).form.kind = .type then g.ownUnit e
      else .error (.detached (g.entity e).header.name) := by
  rw [sourceWithin, h]
  cases (g.entity e).form <;> rfl

theorem sourceWithin_of_some (h : g.parent? e = some p) (n : Nat) :
    g.sourceWithin (n + 1) e = if (g.entity p).form.kind = .type then g.ownUnit p
      else g.sourceWithin n p := by
  rw [sourceWithin, h]
  cases (g.entity e).form <;> dsimp only <;> cases (g.entity p).form <;> rfl

theorem memberSource_eq (g : Graph) (e : EntityId) :
    g.memberSource e = if (g.entity e).form.kind = .type then g.ownUnit e else g.source e := by
  rw [memberSource.eq_def]
  cases (g.entity e).form <;> rfl

/-- What an entity that the chain ends at answers, whatever the limit. -/
theorem sourceWithin_succ_of_next? (h : g.next? e = none) (m n : Nat) :
    g.sourceWithin (m + 1) e = g.sourceWithin (n + 1) e ∧
      g.sourceWithin (n + 1) e ≠ .error .endless := by
  cases hp : g.parent? e with
  | none =>
    rw [sourceWithin_of_none hp, sourceWithin_of_none hp]
    split
    · exact ⟨rfl, ownUnit_ne_endless g e⟩
    · exact ⟨rfl, nofun⟩
  | some p =>
    have hk : (g.entity p).form.kind = .type := by simpa [next?, hp] using h
    rw [sourceWithin_of_some hp, sourceWithin_of_some hp, if_pos hk, if_pos hk]
    exact ⟨rfl, ownUnit_ne_endless g p⟩

theorem sourceWithin_succ_of_some (h : g.next? e = some p) (n : Nat) :
    g.sourceWithin (n + 1) e = g.sourceWithin n p := by
  obtain ⟨hp, hk⟩ := Option.filter_eq_some_iff.1 h
  rw [sourceWithin_of_some hp, if_neg (by simpa using hk)]

/-- The limit is felt exactly if the chain does not end before. -/
theorem sourceWithin_eq_endless_iff (g : Graph) (n : Nat) (e : EntityId) :
    g.sourceWithin n e = .error .endless ↔ (g.climb n e).isSome = true := by
  induction n generalizing e with
  | zero => exact iff_of_true rfl rfl
  | succ n ih =>
    rw [climb]
    cases h : g.next? e with
    | none => exact iff_of_false (sourceWithin_succ_of_next? h 0 n).2 nofun
    | some p =>
      rw [sourceWithin_succ_of_some h, Option.bind_some]
      exact ih p

/-- A higher limit does not matter where the lower one is not felt. -/
theorem sourceWithin_add (g : Graph) {m : Nat} (h : g.sourceWithin m e ≠ .error .endless)
    (n : Nat) : g.sourceWithin (m + n) e = g.sourceWithin m e := by
  induction m generalizing e with
  | zero => exact absurd rfl h
  | succ m ih =>
    rw [Nat.succ_add]
    cases hn : g.next? e with
    | none => exact (sourceWithin_succ_of_next? hn (m + n) m).1
    | some p =>
      rw [sourceWithin_succ_of_some hn] at h ⊢
      rw [sourceWithin_succ_of_some hn]
      exact ih h

/-- As many steps as there are entities tell as much as any higher number of steps. -/
theorem sourceWithin_eq (hg : g.Closed) (he : e < g.entities.length)
    (hn : g.entities.length ≤ n) :
    g.sourceWithin n e = g.sourceWithin g.entities.length e := by
  obtain ⟨k, rfl⟩ := Nat.exists_eq_add_of_le hn
  by_cases h : g.sourceWithin g.entities.length e = .error .endless
  · rw [h, sourceWithin_eq_endless_iff]
    exact isSome_climb hg he ((g.sourceWithin_eq_endless_iff _ e).1 h) _
  · exact g.sourceWithin_add h k

theorem sourceWithin_eq_source (hg : g.Closed) (he : e < g.entities.length)
    (hn : g.entities.length ≤ n) : g.sourceWithin n e = g.source e := by
  rw [source, sourceWithin_eq hg he hn, sourceWithin_eq hg he (Nat.le_succ _)]

/-- The source of an entity without a parent is its own unit, if it is a type; any other entity is
asked what it passes on to its members. -/
theorem source_eq (hg : g.Closed) (e : EntityId) :
    g.source e = match g.parent? e with
      | some p => g.memberSource p
      | none => if (g.entity e).form.kind = .type then g.ownUnit e
        else .error (.detached (g.entity e).header.name) := by
  rw [source]
  cases hp : g.parent? e with
  | none => exact sourceWithin_of_none hp _
  | some p =>
    rw [sourceWithin_of_some hp, sourceWithin_eq_source hg (parent?_lt hg hp) (Nat.le_refl _)]
    exact (g.memberSource_eq p).symm

/-! ## Circles -/

/-- No entity is reached from itself by following parents. -/
def Acyclic (g : Graph) : Prop := ∀ e, ¬ Relation.TransGen (fun e p ↦ g.parent? e = some p) e e

/-- Parents that are made before what refers to them form no circle. -/
theorem acyclic_of_lt (h : ∀ e p, g.parent? e = some p → p < e) : g.Acyclic := by
  have hlt {e p : EntityId} (hp : Relation.TransGen (fun e p ↦ g.parent? e = some p) e p) :
      p < e := by
    induction hp with
    | single hp => exact h _ _ hp
    | tail _ hp ih => exact (h _ _ hp).trans ih
  exact fun e he ↦ (hlt he).false

theorem transGen_of_climb (h : g.climb (n + 1) e = some p) :
    Relation.TransGen (fun e p ↦ g.parent? e = some p) e p := by
  induction n generalizing e with
  | zero =>
    obtain ⟨d, hd, hp⟩ := Option.bind_eq_some_iff.1 h
    cases hp
    exact .single (Option.filter_eq_some_iff.1 hd).1
  | succ n ih =>
    obtain ⟨d, hd, hp⟩ := Option.bind_eq_some_iff.1 h
    exact .head (Option.filter_eq_some_iff.1 hd).1 (ih hp)

/-- Where parents form no circle, the limit is not felt. -/
theorem Acyclic.source_ne_endless (ha : g.Acyclic) (hg : g.Closed) (he : e < g.entities.length) :
    g.source e ≠ .error .endless := by
  rw [source, Ne, sourceWithin_eq_endless_iff, climb_add]
  intro h
  obtain ⟨i, j, hij, hj, heq⟩ := exists_climb_eq hg he (Option.isSome_of_isSome_bind h)
  obtain ⟨k, rfl⟩ := Nat.exists_eq_add_of_lt hij
  obtain ⟨m, hm⟩ := Nat.exists_eq_add_of_le hj
  rw [hm, climb_add] at h
  obtain ⟨d, hd⟩ :=
    Option.isSome_iff_exists.1 (Option.isSome_of_isSome_bind (Option.isSome_of_isSome_bind h))
  rw [hd] at heq
  rw [Nat.add_assoc, climb_add, heq, Option.bind_some] at hd
  exact ha d (transGen_of_climb hd)

theorem detached_of_ownUnit {f : Fault} (h : g.ownUnit e = .error f) :
    f = .detached (g.entity e).header.name := by
  rw [ownUnit] at h
  split at h
  · cases h
  · exact (Except.error.inj h).symm

/-- Within the limit, all that can go wrong is that the chain ends at an entity without a unit. -/
theorem detached_of_sourceWithin {f : Fault} (h : g.sourceWithin n e = .error f)
    (hf : f ≠ .endless) : ∃ name, f = .detached name := by
  induction n generalizing e with
  | zero => exact absurd (Except.error.inj h).symm hf
  | succ n ih =>
    cases hp : g.parent? e with
    | none =>
      rw [sourceWithin_of_none hp] at h
      split at h
      · exact ⟨_, detached_of_ownUnit h⟩
      · exact ⟨_, (Except.error.inj h).symm⟩
    | some p =>
      rw [sourceWithin_of_some hp] at h
      split at h
      · exact ⟨_, detached_of_ownUnit h⟩
      · exact ih h

/-- Where parents form no circle, an entity has a source, or the chain ends at one without a
unit. -/
theorem Acyclic.source_eq (ha : g.Acyclic) (hg : g.Closed) (he : e < g.entities.length) :
    (∃ u, g.source e = .ok u) ∨ ∃ name, g.source e = .error (.detached name) := by
  cases h : g.source e with
  | ok u => exact .inl ⟨u, rfl⟩
  | error f =>
    have hf : f ≠ .endless := fun hf ↦ ha.source_ne_endless hg he (hf ▸ h)
    obtain ⟨name, rfl⟩ := detached_of_sourceWithin h hf
    exact .inr ⟨name, rfl⟩

/-! ## Graphs that agree on parents -/

/-- What following parents depends on is the same in both graphs, for all entities of the first. -/
structure SameParents (g g' : Graph) : Prop where
  parent : ∀ e < g.entities.length, g'.parent? e = g.parent? e
  unit : ∀ e < g.entities.length, g'.ownUnit e = g.ownUnit e
  name : ∀ e < g.entities.length, (g'.entity e).header.name = (g.entity e).header.name
  kind : ∀ e < g.entities.length, (g'.entity e).form.kind = (g.entity e).form.kind

theorem SameParents.sourceWithin (h : SameParents g g') (hg : g.Closed)
    (he : e < g.entities.length) (n : Nat) : g'.sourceWithin n e = g.sourceWithin n e := by
  induction n generalizing e with
  | zero => rfl
  | succ n ih =>
    cases hp : g.parent? e with
    | none =>
      rw [sourceWithin_of_none hp, sourceWithin_of_none (by rw [h.parent e he, hp]), h.kind e he,
        h.unit e he, h.name e he]
    | some p =>
      have hplt := parent?_lt hg hp
      rw [sourceWithin_of_some hp, sourceWithin_of_some (by rw [h.parent e he, hp]),
        h.kind p hplt, h.unit p hplt, ih hplt]

/-- Then all of them have the same source. -/
theorem SameParents.source (h : SameParents g g') (hg : g.Closed)
    (hle : g.entities.length ≤ g'.entities.length) (he : e < g.entities.length) :
    g'.source e = g.source e := by
  rw [Graph.source, h.sourceWithin hg he]
  exact sourceWithin_eq_source hg he (hle.trans (Nat.le_succ _))

end JavaOutline.Graph
