import JavaOutline.Proofs.Graph.Sources
import JavaOutline.Proofs.Session.References

/-! # Sources of members and of what encloses them

A declaration and its parent have the same source, in every state in which parents form no circle,
with one exception: a type passes its own unit on to its members, also where it stands in another
declaration and follows that one itself (`Session.run_source_of_parent`). -/

namespace JavaOutline

namespace Graph

variable {g : Graph} {e p : EntityId}

/-- A type that stands in another declaration. -/
def IsNested (g : Graph) (t : EntityId) : Prop :=
  (g.entity t).form.kind = .type ∧ (g.parent? t).isSome = true

theorem lt_of_parent? (hp : g.parent? e = some p) : e < g.entities.length := by
  by_contra he
  rw [parent?, entity, List.getD_eq_default _ _ (Nat.le_of_not_lt he)] at hp
  cases hp

theorem source_of_parent (hg : g.Closed) (hp : g.parent? e = some p) :
    g.source e = g.memberSource p := by
  rw [source_eq hg, hp]

/-- Only types that stand in another declaration pass on what is not their source. -/
theorem memberSource_eq_source (hg : g.Closed) (hp : ¬ g.IsNested p) :
    g.memberSource p = g.source p := by
  rw [memberSource_eq]
  split
  next hk =>
    have hnone : g.parent? p = none := by
      rw [← Option.not_isSome_iff_eq_none]
      exact fun h ↦ hp ⟨hk, h⟩
    rw [source_eq hg, hnone]
    exact (if_pos hk).symm
  next => rfl

end Graph

namespace Session

open JavaOutline.Graph

/-- In every state without circles of parents, an entity and its parent have the same source or both
have none, unless the parent is a type that stands in another declaration: then the entity's source
is the unit of that type, and the type's is what its own parent passes on. -/
theorem run_source_of_parent {steps : List Step} (hb : ∀ s ∈ steps, s.makesBare = true)
    {g : Graph} (hg : (run {} steps).1 = g) (ha : g.Acyclic) {e p : EntityId}
    (hp : g.parent? e = some p) :
    (¬ g.IsNested p → g.source e = g.source p) ∧
      (∀ q, (g.entity p).form.kind = .type → g.parent? p = some q →
        g.source e = g.ownUnit p ∧ g.source p = g.memberSource q) ∧
      -- Both have an outcome: a unit, or the name of an entity that has none.
      ∀ d, d = e ∨ d = p →
        (∃ u, g.source d = .ok u) ∨ ∃ name, g.source d = .error (.detached name) := by
  have hclosed : g.Closed := hg ▸ closed_run hb .empty
  refine ⟨fun hn ↦ ?_, fun q hk hq ↦ ⟨?_, source_of_parent hclosed hq⟩, ?_⟩
  · rw [source_of_parent hclosed hp, memberSource_eq_source hclosed hn]
  · rw [source_of_parent hclosed hp, memberSource_eq, if_pos hk]
  · rintro d (rfl | rfl)
    · exact ha.source_eq hclosed (lt_of_parent? hp)
    · exact ha.source_eq hclosed (parent?_lt hclosed hp)

/-- A type `B` that refers to no unit is put below a type `A` of a unit, and gets a field; the unit
has a method with a parameter besides. -/
def nesting : List Step :=
  [.new "u" (.unit (some "A.java") none []),
   .new "a" (.entity { name := "A" } (.type {} [] [] none "")), .call "u" (.addType "a"),
   .new "b" (.entity { name := "B" } (.type {} [] [] none "")), .call "b" (.setParent (some "a")),
   .new "f" (.entity { name := "f" } (.field "int" none)), .call "b" (.addField "f"),
   .new "m" (.method { name := "m" } {} []), .call "a" (.addMethod "m"),
   .new "x" (.entity { name := "x" } (.parameter "int" false)), .call "m" (.addParameter "x")]

theorem acyclic_nesting : (run {} nesting).1.Acyclic := by
  have hsome : ∀ e < 5, ∀ p ∈ (run {} nesting).1.parent? e, p < e := by decide +kernel
  have hlen : (run {} nesting).1.entities.length = 5 := by decide +kernel
  refine acyclic_of_lt fun e p hp ↦ hsome e ?_ p hp
  rw [← hlen]
  exact lt_of_parent? hp

/-- The parameter has the source of its method, the type `B` that of `A`, and the field that of `B`,
which has none. -/
theorem run_source_of_parent_nesting : ∃ g : Graph, (run {} nesting).1 = g ∧ g.Acyclic ∧
    g.parent? 4 = some 3 ∧ g.source 4 = g.source 3 ∧
    g.parent? 2 = some 1 ∧ g.parent? 1 = some 0 ∧
    g.source 2 = g.ownUnit 1 ∧ g.source 1 = g.memberSource 0 := by
  refine ⟨_, rfl, acyclic_nesting, ?_⟩
  have ha := acyclic_nesting
  generalize hg : (run {} nesting).1 = g at ha
  have hx : g.parent? 4 = some 3 := by rw [← hg]; decide +kernel
  have hf : g.parent? 2 = some 1 := by rw [← hg]; decide +kernel
  have hb : g.parent? 1 = some 0 := by rw [← hg]; decide +kernel
  have hm : (g.entity 3).form.kind = .method := by rw [← hg]; decide +kernel
  obtain ⟨hsame, -, -⟩ := run_source_of_parent (by decide) hg ha hx
  obtain ⟨-, hnested, -⟩ := run_source_of_parent (by decide) hg ha hf
  obtain ⟨hfs, hbs⟩ := hnested 0 (by rw [← hg]; decide +kernel) hb
  have hn : ¬ g.IsNested 3 := fun h ↦ absurd h.1 (by rw [hm]; exact nofun)
  exact ⟨hx, hsame hn, hf, hb, hfs, hbs⟩

/-- The field of the nested type has no source, although its parent has one. -/
theorem run_source_of_parent_ne : ∃ g : Graph, (run {} nesting).1 = g ∧ g.Acyclic ∧
    g.parent? 2 = some 1 ∧ g.source 1 = .ok 0 ∧ g.source 2 = .error (.detached "B") :=
  ⟨_, rfl, acyclic_nesting, by decide +kernel, by decide +kernel, by decide +kernel⟩

end Session

end JavaOutline
