import JavaOutline.Proofs.Graph.Liveness
import JavaOutline.Proofs.Graph.Owners
import JavaOutline.Proofs.Graph.Sources

/-! # Owners and parents agree

The list of members that an owner keeps and the parents that these refer to are two views of one
relation, changed one after the other.  `Graph.Tied` says that they agree for the owners in
question: these are the live ones and those that are just being made, since an owner that is gone
keeps its list, and nobody sees it.  Agreement holds as long as whatever is handed to an owner has
none yet, and then every chain of parents ends where the source is found. -/

namespace JavaOutline

/-- How many owners an entity of a kind can have above it. -/
def Form.Kind.depth : Form.Kind → Nat
  | .type => 0
  | .method | .field => 1
  | .parameter => 2
  | .plain => 3

theorem Form.Kind.depth_lt_of_takes {k l : Form.Kind} (h : k.takes l = true) :
    k.depth < l.depth := by
  cases k <;> cases l <;> simp [takes, depth] at h ⊢

namespace Graph

variable {g g' : Graph} {L L' LU LU' : Nat → Prop} {o e t : EntityId} {u : UnitId}

/-! ## Agreement -/

/-- Members and parents agree for the owners `L` among the entities and `LU` among the units.
Parents are of a kind that takes up their members, and what a registry lists stands in one of its
units. -/
structure Tied (g : Graph) (L LU : Nat → Prop) : Prop where
  parent : ∀ o, L o → ∀ e ∈ (g.entity o).form.members, (g.entity e).parent = some o
  once : ∀ e p, (g.entity e).parent = some p → L p → (g.entity p).form.members.count e = 1
  unit : ∀ u, LU u → ∀ t ∈ (g.unit u).types, (g.entity t).form.unit? = some u
  onceInUnit : ∀ t u, (g.entity t).form.unit? = some u → LU u → (g.unit u).types.count t = 1
  kinds : ∀ e p, (g.entity e).parent = some p →
    (g.entity p).form.kind.takes (g.entity e).form.kind = true
  registered : ∀ r t, registryLists (g.registry r) t = true →
    ∃ u ∈ (g.registry r).units, t ∈ (g.unit u).types

namespace Tied

theorem mono (hL : ∀ o, L' o → L o) (hLU : ∀ u, LU' u → LU u) (h : Tied g L LU) :
    Tied g L' LU' where
  parent o ho := h.parent o (hL o ho)
  once e p hp ho := h.once e p hp (hL p ho)
  unit u hu := h.unit u (hLU u hu)
  onceInUnit t u ht hu := h.onceInUnit t u ht (hLU u hu)
  kinds := h.kinds
  registered := h.registered

theorem empty : Tied {} L LU where
  parent _ _ _ he := absurd he List.not_mem_nil
  once _ _ hp := by cases hp
  unit _ _ _ ht := absurd ht List.not_mem_nil
  onceInUnit _ _ ht := by cases ht
  kinds _ _ hp := by cases hp
  registered _ _ ht := absurd ht Bool.false_ne_true

/-- What has not been made owns nothing, so agreement extends to new owners. -/
theorem extend (hg : g.Closed) (h : Tied g L LU) :
    Tied g (fun o ↦ L o ∨ g.entities.length ≤ o) fun u ↦ LU u ∨ g.units.length ≤ u where
  parent o ho e he := by
    rcases ho with ho | ho
    · exact h.parent o ho e he
    · exact absurd (lt_of_mem_members he) (Nat.not_lt_of_le ho)
  once e p hp ho := by
    rcases ho with ho | ho
    · exact h.once e p hp ho
    · exact absurd ((hg.entities e).parent p hp) (Nat.not_lt_of_le ho)
  unit u hu t ht := by
    rcases hu with hu | hu
    · exact h.unit u hu t ht
    · exact absurd (lt_of_mem_types ht) (Nat.not_lt_of_le hu)
  onceInUnit t u ht hu := by
    rcases hu with hu | hu
    · exact h.onceInUnit t u ht hu
    · exact absurd ((hg.entities t).unit u ht) (Nat.not_lt_of_le hu)
  kinds := h.kinds
  registered := h.registered

/-! ### Changes -/

theorem lt_of_parent {p : EntityId} (h : (g.entity e).parent = some p) : e < g.entities.length := by
  by_contra he
  rw [entity, List.getD_eq_default _ _ (Nat.le_of_not_lt he)] at h
  cases h

theorem same (hg : g.Closed) (hs : SameLinks g g') (h : Tied g L LU) : Tied g' L LU where
  parent o ho e he := by
    rw [hs.members] at he
    rw [hs.parent]
    exact h.parent o ho e he
  once e p hp ho := by
    rw [hs.parent] at hp
    rw [hs.members]
    exact h.once e p hp ho
  unit u hu t ht := by
    rw [hs.types] at ht
    rw [hs.unit]
    exact h.unit u hu t ht
  onceInUnit t u ht hu := by
    rw [hs.unit] at ht
    rw [hs.types]
    exact h.onceInUnit t u ht hu
  kinds e p hp := by
    rw [hs.parent] at hp
    rw [hs.kind e (lt_of_parent hp), hs.kind p ((hg.entities e).parent p hp)]
    exact h.kinds e p hp
  registered r t ht := by
    rw [hs.registry] at ht ⊢
    simpa only [hs.types] using h.registered r t ht

/-- An entity that none of the owners lists is adopted. -/
theorem adopts (ha : Adopts g o e g') (he : ∀ d, L d → e ∉ (g.entity d).form.members)
    (h : Tied g L LU) : Tied g' L LU := by
  have hunit : g'.unit = g.unit := by rw [ha.rest]; rfl
  have hregistry : g'.registry = g.registry := by rw [ha.rest]; rfl
  constructor
  case parent =>
    intro d hd c hc
    have hold (hc : c ∈ (g.entity d).form.members) : (g'.entity c).parent = some d := by
      have hne : c ≠ e := fun hce ↦ he d hd (hce ▸ hc)
      rw [ha.parent, if_neg hne]
      exact h.parent d hd c hc
    by_cases hdo : d = o
    · subst hdo
      rcases List.mem_cons.1 (ha.members.mem_iff.1 hc) with rfl | hc
      · rw [ha.parent, if_pos rfl]
      · exact hold hc
    · rw [ha.form d hdo] at hc
      exact hold hc
  case once =>
    intro c p hp hL
    rw [ha.parent] at hp
    by_cases hce : c = e
    · subst hce
      rw [if_pos rfl] at hp
      cases hp
      rw [ha.members.count_eq, List.count_cons_self, List.count_eq_zero_of_not_mem (he o hL)]
    · rw [if_neg hce] at hp
      by_cases hpo : p = o
      · subst hpo
        rw [ha.members.count_eq, List.count_cons_of_ne (Ne.symm hce)]
        exact h.once c p hp hL
      · rw [ha.form p hpo]
        exact h.once c p hp hL
  case unit =>
    intro u hu t ht
    rw [hunit] at ht
    rw [ha.unit]
    exact h.unit u hu t ht
  case onceInUnit =>
    intro t u ht hu
    rw [ha.unit] at ht
    rw [hunit]
    exact h.onceInUnit t u ht hu
  case kinds =>
    intro c p hp
    rw [ha.parent] at hp
    rw [ha.kind, ha.kind]
    split at hp
    next hce =>
      cases hp
      rw [hce]
      exact ha.takes
    next => exact h.kinds c p hp
  case registered =>
    rw [hunit, hregistry]
    exact h.registered

/-- Entities that none of the owners lists are adopted one after the other. -/
theorem adoptsAll {es : List EntityId} (ha : AdoptsAll o g es g') (hn : es.Nodup)
    (he : ∀ e ∈ es, ∀ d, L d → e ∉ (g.entity d).form.members) (h : Tied g L LU) :
    Tied g' L LU := by
  induction ha with
  | nil => exact h
  | @cons g g₁ g' e es ha _ ih =>
    obtain ⟨hnot, hn⟩ := List.nodup_cons.1 hn
    obtain ⟨heh, he⟩ := List.forall_mem_cons.1 he
    refine ih hn (fun c hc d hd hmem ↦ ?_) (h.adopts ha heh)
    by_cases hdo : d = o
    · subst hdo
      rcases List.mem_cons.1 (ha.members.mem_iff.1 hmem) with rfl | hmem
      · exact hnot hc
      · exact he c hc d hd hmem
    · rw [ha.form d hdo] at hmem
      exact he c hc d hd hmem

/-- A type that none of the units lists comes to stand in one. -/
theorem houses (hu : u < g.units.length) (ha : Houses g u t g')
    (ht : ∀ v, LU v → t ∉ (g.unit v).types) (h : Tied g L LU) : Tied g' L LU := by
  have hregistry : g'.registry = g.registry := by rw [ha.rest]; rfl
  have htypes (v : UnitId) : (g'.unit v).types =
      if v = u then (g.unit v).types ++ [t] else (g.unit v).types := by
    rw [ha.types]
    by_cases hv : v = u
    · subst hv
      simp [hu]
    · simp [hv]
  constructor
  case parent =>
    intro d hd c hc
    rw [ha.members] at hc
    rw [ha.parent]
    exact h.parent d hd c hc
  case once =>
    intro c p hp hL
    rw [ha.parent] at hp
    rw [ha.members]
    exact h.once c p hp hL
  case unit =>
    intro v hv c hc
    have hold (hc : c ∈ (g.unit v).types) : (g'.entity c).form.unit? = some v := by
      have hne : c ≠ t := fun hct ↦ ht v hv (hct ▸ hc)
      rw [ha.unit, if_neg hne]
      exact h.unit v hv c hc
    rw [htypes] at hc
    split at hc
    next hvu =>
      rcases List.mem_append.1 hc with hc | hc
      · exact hold hc
      · rw [ha.unit, if_pos (List.mem_singleton.1 hc), hvu]
    next => exact hold hc
  case onceInUnit =>
    intro c v hc hv
    rw [ha.unit] at hc
    rw [htypes]
    by_cases hct : c = t
    · subst hct
      rw [if_pos rfl] at hc
      cases hc
      rw [if_pos rfl, List.count_append, List.count_eq_zero_of_not_mem (ht u hv),
        List.count_singleton_self]
    · rw [if_neg hct] at hc
      have hone := h.onceInUnit c v hc hv
      split
      · rw [List.count_append, hone, List.count_eq_zero_of_not_mem]
        rw [List.mem_singleton]
        exact hct
      · exact hone
  case kinds =>
    intro c p hp
    rw [ha.parent] at hp
    rw [ha.kind, ha.kind]
    exact h.kinds c p hp
  case registered =>
    intro r c hc
    rw [hregistry] at hc ⊢
    obtain ⟨v, hv, hcv⟩ := h.registered r c hc
    refine ⟨v, hv, ?_⟩
    rw [htypes]
    split
    · exact List.mem_append_left _ hcv
    · exact hcv

/-- A registry takes up a unit with its types. -/
theorem registers (hg : g.Closed) (i : RegistryId) (u : UnitId) (h : Tied g L LU) :
    Tied (g.addToRegistry i u).1 L LU := by
  have hsame := sameLinks_named g u
  have hrest := addToRegistry_fst_eq g i u
  have hnamed := h.same hg hsame
  have hunit (v : UnitId) : ((g.addToRegistry i u).1.unit v).types = (g.unit v).types := by
    rw [hrest]
    exact hsame.types v
  constructor
  case registered =>
    intro j t ht
    simp only [units_addToRegistry, hunit]
    rcases registryLists_addToRegistry hg.apart ht with ht | ⟨hj, ht⟩
    · obtain ⟨v, hv, htv⟩ := h.registered j t ht
      refine ⟨v, ?_, htv⟩
      split
      · exact List.mem_append_left _ hv
      · exact hv
    · rw [if_pos hj]
      exact ⟨u, List.mem_append_right _ List.mem_cons_self, ht⟩
  all_goals rw [hrest]
  case parent => exact hnamed.parent
  case once => exact hnamed.once
  case unit => exact hnamed.unit
  case onceInUnit => exact hnamed.onceInUnit
  case kinds => exact hnamed.kinds

theorem bind (s : String) (r : Ref) (h : Tied g L LU) : Tied (g.bind s r) L LU := { h with }

theorem drop (s : String) (h : Tied g L LU) : Tied (g.drop s) L LU := { h with }

end Tied

/-! ## Owners that make nothing live -/

namespace Fades

/-- What is a root already is taken up by some entities. -/
theorem of_entities (es : List Entity) (hm : ∀ o, ∀ e ∈ (es.getD o default).form.members,
    e ∈ (g.entity o).form.members ∨ g.isRoot e = true) : Fades g { g with entities := es } where
  handles _ hr := .inl hr
  members := hm
  types _ _ ht := .inl ht
  packages _ _ ht := .inl ht
  lists _ _ ht := .inl ht
  units _ _ hu := .inl hu

theorem adopts (ha : Adopts g o e g') (he : g.isRoot e = true) : Fades g g' := by
  rw [ha.rest]
  refine of_entities _ fun d c hc ↦ ?_
  change c ∈ (g'.entity d).form.members at hc
  by_cases hd : d = o
  · subst hd
    rcases List.mem_cons.1 (ha.members.mem_iff.1 hc) with rfl | hc
    · exact .inr he
    · exact .inl hc
  · rw [ha.form d hd] at hc
    exact .inl hc

theorem withMethod {header : Header} {head : MethodHead} {es : List EntityId}
    (ha : AdoptsAll g.entities.length (g.withMethod header head) es g')
    (he : ∀ e ∈ es, g.isRoot e = true) : Fades g g' := by
  rw [ha.rest]
  refine of_entities _ fun d c hc ↦ ?_
  change c ∈ (g'.entity d).form.members at hc
  rcases ha.mem_members hc with hc | hc
  · rw [(sameLinks_withMethod g header head).members] at hc
    exact .inl hc
  · exact .inr (he c hc)

theorem houses (ha : Houses g u t g') (ht : g.isRoot t = true) : Fades g g' where
  handles r hr := by rw [ha.rest] at hr; exact .inl hr
  members d c hc := .inl (ha.members d ▸ hc)
  types v c hc := by
    rw [ha.types] at hc
    split at hc
    · rcases List.mem_append.1 hc with hc | hc
      · exact .inl hc
      · rw [List.mem_singleton.1 hc]
        exact .inr ht
    · exact .inl hc
  packages p c hc := by rw [ha.rest] at hc; exact .inl hc
  lists r c hc := by rw [ha.rest] at hc; exact .inl hc
  units r v hv := by rw [ha.rest] at hv; exact .inl hv

/-- The types of a unit that is held are roots, so registering it makes nothing live. -/
theorem registers (hg : g.Closed) (i : RegistryId) (hu : g.unitIsLive u = true) :
    Fades g (g.addToRegistry i u).1 := by
  have hrest := addToRegistry_fst_eq g i u
  have hnamed := (sameLinks_named g u).fades
  have hroot (t : EntityId) (ht : t ∈ (g.unit u).types) : g.isRoot t = true :=
    isRoot_iff.2 (.inr (.inl ⟨u, ht, hu⟩))
  constructor
  case packages => exact fun p t ht ↦ (mem_types_addToRegistry ht).imp_right (hroot t)
  case lists =>
    exact fun j t ht ↦ (registryLists_addToRegistry hg.apart ht).imp_right fun h ↦ hroot t h.2
  case units =>
    intro j v hv
    rw [units_addToRegistry] at hv
    split at hv
    · rcases List.mem_append.1 hv with hv | hv
      · exact .inl hv
      · rw [List.mem_singleton.1 hv]
        exact .inr hu
    · exact .inl hv
  all_goals rw [hrest]
  case handles => exact hnamed.handles
  case members => exact hnamed.members
  case types => exact hnamed.types

theorem bind (h : Fades g g') (s : String) {r : Ref}
    (hr : g.IsNext r ∨ ∃ p, r = .package p ∧ g.HeldBelow p) : Fades g (g'.bind s r) := by
  refine { h with handles := fun x hx ↦ ?_ }
  obtain ⟨p, hp, hpx⟩ := List.any_eq_true.1 hx
  rw [beq_iff_eq] at hpx
  subst hpx
  rcases mem_handles_bind hp with hp | hp
  · exact h.handles _ (List.any_eq_true.2 ⟨p, hp, beq_self_eq_true _⟩)
  · rw [hp]
    exact .inr hr

theorem drop (g : Graph) (s : String) : Fades g (g.drop s) := by
  refine { (SameLinks.refl g).fades with handles := fun x hx ↦ ?_ }
  obtain ⟨p, hp, hpx⟩ := List.any_eq_true.1 hx
  exact .inl (List.any_eq_true.2 ⟨p, List.mem_of_mem_filter hp, hpx⟩)

end Fades

/-! ## Chains of parents -/

/-- Following parents from an entity ends at another, which has none. -/
inductive Climbs (g : Graph) : EntityId → EntityId → Prop
  | stop {e : EntityId} (h : g.parent? e = none) : Climbs g e e
  | up {e p d : EntityId} (h : g.parent? e = some p) (hs : Climbs g p d) : Climbs g e d

theorem Tied.kinds_parent? (h : Tied g L LU) {p : EntityId} (hp : g.parent? e = some p) :
    (g.entity p).form.kind.takes (g.entity e).form.kind = true :=
  h.kinds e p (Option.filter_eq_some_iff.1 hp).1

/-- Types belong to units and to nothing else. -/
theorem Tied.parent?_of_type (h : Tied g L LU) (ht : (g.entity t).form.kind = .type) :
    g.parent? t = none := by
  rw [Option.eq_none_iff_forall_ne_some]
  intro p hp
  have hk := h.kinds_parent? hp
  rw [ht] at hk
  cases hf : (g.entity p).form.kind <;> rw [hf] at hk <;> cases hk

theorem ownUnit_of_kind_ne (h : (g.entity e).form.kind ≠ .type) :
    g.ownUnit e = .error (.detached (g.entity e).header.name) := by
  rw [ownUnit, parentUnit?_eq, Form.unit?_of_kind_ne h]
  rfl

/-- The source of an entity is the unit of the last entity that parents lead to, and it is that
entity which has none otherwise. -/
theorem Tied.exists_climbs (hg : g.Closed) (h : Tied g L LU) (e : EntityId) :
    ∃ d, Climbs g e d ∧ g.source e = g.ownUnit d := by
  induction hn : (g.entity e).form.kind.depth using Nat.strongRecOn generalizing e with
  | ind n ih =>
    rw [source_eq hg]
    cases hp : g.parent? e with
    | none =>
      refine ⟨e, .stop hp, ?_⟩
      by_cases hk : (g.entity e).form.kind = .type
      · exact if_pos hk
      · exact (if_neg hk).trans (ownUnit_of_kind_ne hk).symm
    | some p =>
      dsimp only
      rw [memberSource_eq]
      by_cases hk : (g.entity p).form.kind = .type
      · exact ⟨p, .up hp (.stop (h.parent?_of_type hk)), if_pos hk⟩
      · have hlt := Form.Kind.depth_lt_of_takes (h.kinds_parent? hp)
        obtain ⟨d, hd, hs⟩ := ih _ (hn ▸ hlt) p rfl
        exact ⟨d, .up hp hd, (if_neg hk).trans hs⟩

/-! ## Registered types -/

namespace Tied

variable (h : Tied g (g.isLive · = true) (g.unitIsLive · = true))
include h

theorem parent?_of_mem_members (ho : g.isLive o = true) (he : e ∈ (g.entity o).form.members) :
    g.parent? e = some o :=
  Option.filter_eq_some_iff.2 ⟨h.parent o ho e he, ho⟩

theorem parentUnit?_of_mem_types (hu : g.unitIsLive u = true) (ht : t ∈ (g.unit u).types) :
    g.parentUnit? t = some u := by
  rw [parentUnit?_eq]
  exact Option.filter_eq_some_iff.2 ⟨h.unit u hu t ht, hu⟩

/-- Only types refer to units. -/
theorem kind_of_mem_types (hu : g.unitIsLive u = true) (ht : t ∈ (g.unit u).types) :
    (g.entity t).form.kind = .type := by
  by_contra hk
  have hunit := h.unit u hu t ht
  rw [Form.unit?_of_kind_ne hk] at hunit
  cases hunit

/-- Whatever stands in a live unit, at any depth, has that unit as its source. -/
theorem source_of_mem_descendants (hg : g.Closed) (hu : g.unitIsLive u = true)
    (ht : t ∈ (g.unit u).types) (he : e ∈ g.descendants t) : g.source e = .ok u := by
  have hkind := h.kind_of_mem_types hu ht
  have hown : g.ownUnit t = .ok u := by rw [ownUnit, h.parentUnit?_of_mem_types hu ht]
  have hlive (n : Nat) : g.isLiveWithin n t = true :=
    isLiveWithin_of_isRoot (isRoot_iff.2 (.inr (.inl ⟨u, ht, hu⟩))) n
  have hmember {m : EntityId} (hm : m ∈ (g.entity t).form.members) : g.source m = .ok u := by
    rw [source_eq hg, h.parent?_of_mem_members (hlive 2) hm]
    dsimp only
    rw [memberSource_eq, if_pos hkind, hown]
  rcases mem_descendants_iff.1 he with rfl | he | ⟨m, hm, he⟩
  · rw [source_eq hg, h.parent?_of_type hkind]
    exact (if_pos hkind).trans hown
  · exact hmember he
  · have hmlive : g.isLive m = true := isLiveWithin_succ_iff.2 (.inr ⟨t, hm, hlive 1⟩)
    have hk : (g.entity m).form.kind ≠ .type := by
      intro hk
      have htakes := h.kinds m t (h.parent t (hlive 2) m hm)
      rw [hk, hkind] at htakes
      cases htakes
    rw [source_eq hg, h.parent?_of_mem_members hmlive he]
    dsimp only
    rw [memberSource_eq, if_neg hk, hmember hm]

end Tied

end Graph

end JavaOutline
