import Mathlib.Data.List.Forall2

/-! # Computations that can fail

A computation in sequence succeeds exactly if all its parts do.  These are the laws that take a
success apart, and those that put one together. -/

namespace JavaOutline

variable {ε α β : Type}

theorem bind_of_eq_ok {x : Except ε α} {a : α} (h : x = .ok a) (f : α → Except ε β) :
    (x >>= f) = f a := h ▸ rfl

theorem bind_eq_ok_iff {x : Except ε α} {f : α → Except ε β} {b : β} :
    (x >>= f) = .ok b ↔ ∃ a, x = .ok a ∧ f a = .ok b := by
  cases x with
  | error e => exact ⟨nofun, fun ⟨_, h, _⟩ ↦ absurd h nofun⟩
  | ok a => exact ⟨fun h ↦ ⟨a, rfl, h⟩, fun ⟨_, h, h'⟩ ↦ Except.ok.inj h ▸ h'⟩

theorem map_eq_ok_iff {x : Except ε α} {f : α → β} {b : β} :
    (f <$> x) = .ok b ↔ ∃ a, x = .ok a ∧ f a = b := by
  cases x with
  | error e => exact ⟨nofun, fun ⟨_, h, _⟩ ↦ absurd h nofun⟩
  | ok a =>
    refine ⟨fun h ↦ ⟨a, rfl, Except.ok.inj h⟩, fun ⟨a', h, h'⟩ ↦ ?_⟩
    rw [← h', ← Except.ok.inj h]
    rfl

/-- A list is gone through with success exactly if each of its elements is. -/
theorem mapM_eq_ok_iff {f : α → Except ε β} {as : List α} {bs : List β} :
    as.mapM f = .ok bs ↔ List.Forall₂ (fun a b ↦ f a = .ok b) as bs := by
  induction as generalizing bs with
  | nil =>
    rw [List.mapM_nil, List.forall₂_nil_left_iff]
    exact ⟨fun h ↦ (Except.ok.inj h).symm, fun h ↦ h ▸ rfl⟩
  | cons a as ih =>
    rw [List.mapM_cons, bind_eq_ok_iff, List.forall₂_cons_left_iff]
    refine exists_congr fun b ↦ ?_
    rw [bind_eq_ok_iff]
    constructor
    · rintro ⟨hb, bs', hbs', h⟩
      exact ⟨bs', hb, ih.1 hbs', (Except.ok.inj h).symm⟩
    · rintro ⟨bs', hb, hbs', rfl⟩
      exact ⟨hb, bs', ih.2 hbs', rfl⟩

/-- Each result comes from an element of the list that was gone through. -/
theorem mem_iff_of_mapM_eq_ok {f : α → Except ε β} {as : List α} {bs : List β}
    (h : as.mapM f = .ok bs) {b : β} : b ∈ bs ↔ ∃ a ∈ as, f a = .ok b := by
  rw [mapM_eq_ok_iff] at h
  induction h with
  | nil => exact iff_of_false List.not_mem_nil nofun
  | @cons a c as bs hc _ ih =>
    have hhead : b = c ↔ f a = .ok b := by
      rw [hc]
      exact ⟨fun h ↦ h ▸ rfl, fun h ↦ (Except.ok.inj h).symm⟩
    rw [List.mem_cons, List.exists_mem_cons_iff]
    exact or_congr hhead ih

/-- What is kept of a list can be picked out once all of it has been gone through. -/
theorem filterMapM_eq_mapM (f : α → Except ε (Option β)) (as : List α) :
    as.filterMapM f = (·.filterMap id) <$> as.mapM f := by
  induction as with
  | nil => rfl
  | cons a as ih =>
    rw [List.filterMapM_cons, List.mapM_cons, ih]
    cases f a with
    | error e => rfl
    | ok o => cases o <;> cases as.mapM f <;> rfl

/-- The computation has a result. -/
def Succeeds (x : Except ε α) : Prop := ∃ a, x = .ok a

/-- Whatever the computation fails with is of this kind. -/
def FailsOnly (E : ε → Prop) (x : Except ε α) : Prop := ∀ e, x = .error e → E e

/-- A computation that can fail with nothing has a result. -/
theorem FailsOnly.succeeds {x : Except ε α} (h : FailsOnly (fun _ ↦ False) x) : Succeeds x := by
  cases x with
  | error e => exact (h e rfl).elim
  | ok a => exact ⟨a, rfl⟩

theorem isOk_iff_succeeds {x : Except ε α} : x.isOk = true ↔ Succeeds x := by
  cases x with
  | error e => exact ⟨nofun, fun ⟨_, h⟩ ↦ absurd h nofun⟩
  | ok a => exact ⟨fun _ ↦ ⟨a, rfl⟩, fun _ ↦ rfl⟩

theorem succeeds_map {x : Except ε α} {f : α → β} : Succeeds (f <$> x) ↔ Succeeds x := by
  constructor
  · rintro ⟨b, hb⟩
    obtain ⟨a, ha, -⟩ := map_eq_ok_iff.1 hb
    exact ⟨a, ha⟩
  · rintro ⟨a, rfl⟩
    exact ⟨f a, rfl⟩

theorem succeeds_mapM {f : α → Except ε β} {as : List α} :
    Succeeds (as.mapM f) ↔ ∀ a ∈ as, Succeeds (f a) := by
  induction as with
  | nil => exact ⟨fun _ ↦ nofun, fun _ ↦ ⟨[], rfl⟩⟩
  | cons a as ih =>
    rw [List.forall_mem_cons, ← ih, List.mapM_cons]
    constructor
    · rintro ⟨bs, hbs⟩
      obtain ⟨b, hb, hbs⟩ := bind_eq_ok_iff.1 hbs
      obtain ⟨bs', hbs', -⟩ := bind_eq_ok_iff.1 hbs
      exact ⟨⟨b, hb⟩, bs', hbs'⟩
    · rintro ⟨⟨b, hb⟩, bs, hbs⟩
      rw [hb, hbs]
      exact ⟨_, rfl⟩

namespace FailsOnly

variable {E : ε → Prop} {x : Except ε α}

theorem ok (a : α) : FailsOnly E (.ok a : Except ε α) := nofun

theorem bind {f : α → Except ε β} (h : FailsOnly E x) (hf : ∀ a, FailsOnly E (f a)) :
    FailsOnly E (x >>= f) := by
  cases x with
  | error e => exact fun e' he' ↦ h e' (congrArg Except.error (Except.error.inj he'))
  | ok a => exact hf a

theorem map (h : FailsOnly E x) (f : α → β) : FailsOnly E (f <$> x) := by
  cases x with
  | error e => exact fun e' he' ↦ h e' (congrArg Except.error (Except.error.inj he'))
  | ok a => exact ok (f a)

theorem mapM {f : α → Except ε β} {as : List α} (h : ∀ a ∈ as, FailsOnly E (f a)) :
    FailsOnly E (as.mapM f) := by
  induction as with
  | nil => exact ok []
  | cons a as ih =>
    obtain ⟨ha, has⟩ := List.forall_mem_cons.1 h
    rw [List.mapM_cons]
    exact ha.bind fun b ↦ (ih has).map (b :: ·)

theorem mapM_option {f : α → Except ε β} {o : Option α} (h : ∀ a ∈ o, FailsOnly E (f a)) :
    FailsOnly E (o.mapM f) := by
  cases o with
  | none => exact ok none
  | some a => exact (h a rfl).map some

theorem filterMapM {f : α → Except ε (Option β)} {as : List α}
    (h : ∀ a ∈ as, FailsOnly E (f a)) : FailsOnly E (as.filterMapM f) := by
  rw [filterMapM_eq_mapM]
  exact (mapM h).map _

end FailsOnly

/-! ## Lists that correspond -/

variable {γ δ : Type} {R : α → β → Prop} {P : γ → δ → Prop} {as : List α} {bs : List β}

/-- If two lists correspond and so do their elements' parts, then so do all the parts, where only
some elements of the first list have any. -/
theorem forall₂_filter_flatMap {p : α → Bool} {f : α → List γ} {g : β → List δ}
    (hR : List.Forall₂ R as bs)
    (h : ∀ a b, R a b → if p a then List.Forall₂ P (f a) (g b) else g b = []) :
    List.Forall₂ P ((as.filter p).flatMap f) (bs.flatMap g) := by
  induction hR with
  | nil => exact .nil
  | @cons a b as bs hab _ ih =>
    have hab := h a b hab
    rw [List.flatMap_cons]
    by_cases hp : p a
    · rw [if_pos hp] at hab
      rw [List.filter_cons_of_pos hp, List.flatMap_cons]
      exact List.rel_append hab ih
    · rw [if_neg hp] at hab
      rw [List.filter_cons_of_neg hp, hab, List.nil_append]
      exact ih

theorem forall₂_filter_filterMap {P : α → γ → Prop} {p : α → Bool} {f : β → Option γ}
    (hR : List.Forall₂ R as bs)
    (h : ∀ a b, R a b → if p a then ∃ c, f b = some c ∧ P a c else f b = none) :
    List.Forall₂ P (as.filter p) (bs.filterMap f) := by
  rw [List.filterMap_eq_flatMap_toList, ← List.flatMap_singleton' (as.filter p)]
  refine forall₂_filter_flatMap hR fun a b hab ↦ ?_
  have hab := h a b hab
  split at hab
  · next hp =>
    obtain ⟨c, hc, hP⟩ := hab
    rw [if_pos hp, hc]
    exact .cons hP .nil
  · next hp => rw [if_neg hp, hab, Option.toList_none]

theorem forall_mem_of_forall₂ {Q : β → Prop} (hR : List.Forall₂ R as bs)
    (h : ∀ a b, R a b → Q b) : ∀ b ∈ bs, Q b := by
  induction hR with
  | nil => exact nofun
  | cons hab _ ih => exact List.forall_mem_cons.2 ⟨h _ _ hab, ih⟩

/-- Three lists correspond element by element. -/
inductive Forall₃ (S : α → β → γ → Prop) : List α → List β → List γ → Prop
  | nil : Forall₃ S [] [] []
  | cons {a : α} {b : β} {c : γ} {as : List α} {bs : List β} {cs : List γ} (h : S a b c)
      (hs : Forall₃ S as bs cs) : Forall₃ S (a :: as) (b :: bs) (c :: cs)

/-- Two lists correspond if what they correspond to does. -/
theorem forall₃_of_forall₂ {as' : List δ} {cs : List γ} {T : α → δ → Prop} {Q : δ → γ → Prop}
    {S : α → β → γ → Prop} (hR : List.Forall₂ R as bs) (hT : List.Forall₂ T as as')
    (hQ : List.Forall₂ Q as' cs) (h : ∀ a b d c, R a b → T a d → Q d c → S a b c) :
    Forall₃ S as bs cs := by
  induction hR generalizing as' cs with
  | nil =>
    cases hT
    cases hQ
    exact .nil
  | cons hab _ ih =>
    cases hT with
    | cons had hT =>
      cases hQ with
      | cons hdc hQ => exact .cons (h _ _ _ _ hab had hdc) (ih hT hQ)

/-! ## Look-ups -/

section Lookup

variable {κ ν : Type} [BEq κ] [LawfulBEq κ] {k : κ}

/-- A look-up does not see what is taken out of a list under other keys. -/
theorem lookup_filter {q : κ × ν → Bool} (h : ∀ x, q (k, x) = true) (ps : List (κ × ν)) :
    (ps.filter q).lookup k = ps.lookup k := by
  induction ps with
  | nil => rfl
  | cons p ps ih =>
    obtain ⟨a, x⟩ := p
    by_cases hq : q (a, x) = true
    · rw [List.filter_cons_of_pos hq, List.lookup_cons, List.lookup_cons, ih]
    · have ha : k ≠ a := fun heq ↦ hq (heq ▸ h x)
      rw [List.filter_cons_of_neg hq, List.lookup_cons, beq_eq_false_iff_ne.2 ha, ih]

end Lookup

end JavaOutline
