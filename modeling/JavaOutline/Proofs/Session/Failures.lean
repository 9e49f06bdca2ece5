import JavaOutline.Proofs.Graph.Failures
import JavaOutline.Proofs.Session.References

/-! # Steps that fail

A step that fails leaves the graph as it is, with one exception: a method whose making fails has
taken up the parameters in front of the one that refused it, and these have lost the parent that
they had.  `Session.step_of_fault` says how far everything looks as it did before. -/

namespace JavaOutline.Session

open JavaOutline JavaOutline.Graph

/-! ## Where a fault leaves traces -/

/-- The step has an answer, or the graph stays as it is. -/
def Clean (g : Graph) (x : Graph × Reply) : Prop := (∃ a, x.2.result = .ok a) ∨ x.1 = g

theorem clean_call (g : Graph) (r : Ref) (c : Call) : Clean g (call g r c) := by
  rw [call.eq_def]
  split
  · split
    · exact .inl ⟨_, rfl⟩
    · exact .inr rfl
  · split
    · exact .inl ⟨_, rfl⟩
    · exact .inr rfl
  · split
    · exact .inr rfl
    · exact .inl ⟨_, rfl⟩
  · split
    · exact .inl ⟨_, rfl⟩
    · exact .inr rfl
    · split <;> exact .inr rfl

theorem clean_withRef {g : Graph} {s : String} {f : Ref → Graph × Reply}
    (hf : ∀ r, Clean g (f r)) : Clean g (withRef g s f) := by
  rw [withRef]
  split
  · exact hf _
  · exact .inr rfl

theorem clean_new (g : Graph) (s : String) (o : NewObject)
    (ho : ∀ header head handles, o ≠ .method header head handles) :
    Clean g (step g (.new s o)) := by
  cases o with
  | method header head handles => exact absurd rfl (ho header head handles)
  | _ => exact .inl ⟨_, rfl⟩

/-- Only the making of a method can fail and leave a trace. -/
theorem clean_step (g : Graph) {s : Step}
    (hs : ∀ name header head handles, s ≠ .new name (.method header head handles)) :
    Clean g (step g s) := by
  cases s with
  | new s o => exact clean_new g s o fun header head handles h ↦ hs s header head handles (h ▸ rfl)
  | set s a =>
    refine clean_withRef fun r ↦ ?_
    split
    · exact .inl ⟨_, rfl⟩
    · exact .inr rfl
    · exact .inr rfl
  | call s c => exact clean_withRef fun r ↦ clean_call g r c
  | drop s => exact .inl ⟨_, rfl⟩
  | hold s lib n => exact clean_withRef fun r ↦ by split <;> [exact .inl ⟨_, rfl⟩; exact .inr rfl]
  | get | render | describe | «show» => exact clean_withRef fun _ ↦ .inr rfl
  | _ => exact .inr rfl

variable {g : Graph} {f : Fault} {s : Step}

theorem step_eq_of_fault
    (hs : ∀ name header head handles, s ≠ .new name (.method header head handles))
    (hf : (step g s).2.result = .error f) : (step g s).1 = g := by
  refine (clean_step g hs).resolve_left ?_
  rintro ⟨a, ha⟩
  rw [ha] at hf
  cases hf

theorem handedOver_of_fault
    (hs : ∀ name header head handles, s ≠ .new name (.method header head handles))
    (hf : (step g s).2.result = .error f) : handedOver g s = [] := by
  cases s with
  | new s o =>
    cases o with
    | method header head handles => exact absurd rfl (hs s header head handles)
    | _ => rfl
  | call s c => rw [handedOver, hf]; rfl
  | _ => rfl

/-- A method whose making fails has taken up what it was handed, and that is all. -/
theorem looksAlike_of_fault (hg : g.Closed) {name : String} {header : Header} {head : MethodHead}
    {handles : List String} (hs : s = .new name (.method header head handles))
    (hf : (step g s).2.result = .error f) :
    LooksAlike (g.orphaned (handedOver g s)) (step g s).1 := by
  subst hs
  cases hps : handles.mapM (findEntity g) with
  | error f' =>
    have hover : handedOver g (.new name (.method header head handles)) = [] := by
      rw [handedOver, hps]
      rfl
    rw [hover, orphaned_nil, step, make, hps]
    exact .refl g
  | ok ps =>
    have hover : handedOver g (.new name (.method header head handles)) =
        ps.takeWhile g.isFreeParameter := by
      rw [handedOver, hps]
      rfl
    obtain ⟨hall, -⟩ := adoptsAll_newMethod header head (lt_of_mem_mapM hg hps)
    rw [hover]
    rw [step, make, hps] at hf ⊢
    dsimp only at hf ⊢
    cases hm : g.newMethod header head ps with
    | mk g' r =>
      rw [hm] at hf hall
      cases r with
      | ok m => cases hf
      | error f' => exact looksAlike_of_adoptsAll hg hall

/-- Steps that fail: everything looks as it did before, but for the parents of parameters that a
method had taken up when its making failed.  So a failing step is not seen at all, unless one of
these had a parent; other steps leave the graph as it is. -/
theorem step_of_fault {steps : List Step} (hb : ∀ s ∈ steps, s.makesBare = true) {g : Graph}
    (hg : (run {} steps).1 = g) {s : Step} {f : Fault} (hf : (step g s).2.result = .error f) :
    LooksAlike (g.orphaned (handedOver g s)) (step g s).1 ∧
      (LooksAlike g (step g s).1 ↔ ∀ e ∈ handedOver g s, g.parent? e = none) ∧
      ((∀ name header head handles, s ≠ .new name (.method header head handles)) →
        (step g s).1 = g) := by
  have hclosed : g.Closed := hg ▸ closed_run hb .empty
  have hlike : LooksAlike (g.orphaned (handedOver g s)) (step g s).1 := by
    by_cases hs : ∀ name header head handles, s ≠ .new name (.method header head handles)
    · rw [step_eq_of_fault hs hf, handedOver_of_fault hs hf, orphaned_nil]
      exact .refl g
    · push Not at hs
      obtain ⟨name, header, head, handles, hs⟩ := hs
      exact looksAlike_of_fault hclosed hs hf
  refine ⟨hlike, ⟨fun h e he ↦ ?_, fun h ↦ ?_⟩, fun hs ↦ step_eq_of_fault hs hf⟩
  · by_cases hlt : e < g.entities.length
    · rw [← h.parent e hlt, hlike.parent e (by rwa [entities_length_orphaned]), parent?_orphaned,
        if_pos he]
    · rw [parent?, entity, List.getD_eq_default _ _ (Nat.le_of_not_lt hlt)]
      rfl
  · exact (looksAlike_orphaned hclosed h).trans hlike

/-- A method that refuses the second of two parameters which belong to nothing yet: nobody can tell
that it had taken up the first. -/
theorem step_of_fault_unowned :
    ∃ g : Graph, (run {} [
        .new "x" (.entity { name := "x" } (.parameter "int" false)),
        .new "y" (.entity { name := "y" } (.parameter "int" false)), .call "y" .freeze]).1 = g ∧
      handedOver g (.new "n" (.method { name := "n" } {} ["x", "y"])) = [0] ∧
      LooksAlike g (step g (.new "n" (.method { name := "n" } {} ["x", "y"]))).1 := by
  refine ⟨_, rfl, ?_⟩
  generalize hg : (run {} _).1 = g
  have hf : (step g (.new "n" (.method { name := "n" } {} ["x", "y"]))).2.result =
      .error (.frozen "y" "parent_declaration") := by rw [← hg]; rfl
  have hover : handedOver g (.new "n" (.method { name := "n" } {} ["x", "y"])) = [0] := by
    rw [← hg]; rfl
  obtain ⟨-, hlike, -⟩ := step_of_fault (by decide) hg hf
  refine ⟨hover, hlike.2 fun e he ↦ ?_⟩
  rw [hover, List.mem_singleton] at he
  rw [he, ← hg]
  decide +kernel

/-- Two methods share a parameter, and the making of the second one fails behind it: the parameter
has lost its parent and with it its source. -/
theorem step_of_fault_orphans :
    ∃ g : Graph, (run {} [
        .new "u" (.unit (some "A.java") none []),
        .new "t" (.entity { name := "A" } (.type {} [] [] none "")),
        .new "x" (.entity { name := "x" } (.parameter "int" false)),
        .new "m" (.method { name := "m" } {} ["x"]),
        .call "t" (.addMethod "m"), .call "u" (.addType "t"),
        .new "y" (.entity { name := "y" } (.parameter "int" false)), .call "y" .freeze]).1 = g ∧
      (step g (.new "n" (.method { name := "n" } {} ["x", "y"]))).2.result =
        .error (.frozen "y" "parent_declaration") ∧
      g.parent? 1 = some 2 ∧ g.source 1 = .ok 0 ∧
      (step g (.new "n" (.method { name := "n" } {} ["x", "y"]))).1.parent? 1 = none ∧
      (step g (.new "n" (.method { name := "n" } {} ["x", "y"]))).1.source 1 =
        .error (.detached "x") ∧
      ¬ LooksAlike g (step g (.new "n" (.method { name := "n" } {} ["x", "y"]))).1 := by
  refine ⟨_, rfl, ?_⟩
  generalize hg : (run {} _).1 = g
  have hparent : g.parent? 1 = some 2 := by rw [← hg]; decide +kernel
  have hlost : (step g (.new "n" (.method { name := "n" } {} ["x", "y"]))).1.parent? 1 = none := by
    rw [← hg]; decide +kernel
  refine ⟨by rw [← hg]; rfl, hparent, by rw [← hg]; decide +kernel, hlost,
    by rw [← hg]; decide +kernel, fun h ↦ ?_⟩
  have hsame := h.parent 1 (by rw [← hg]; decide +kernel)
  rw [hparent, hlost] at hsame
  cases hsame

end JavaOutline.Session
