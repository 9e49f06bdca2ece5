import JavaOutline.Proofs.Graph.Liveness
import JavaOutline.Proofs.Session.References

/-! # Queries

Reading properties, looking things up, writing text and comparing leave a graph as it is, with one
exception: looking up the name of a type's package notes the name for the time when the unit is
gone.  A query can be left out of a session without any other step answering differently exactly if
it notes nothing new (`Session.run_without_query`); otherwise some continuation tells: let go of
everything but the type and ask for its package. -/

namespace JavaOutline

/-- The name of the package that is noted beside a type. -/
def Form.noted : Form → String
  | .type _ _ _ _ name => name
  | _ => ""

namespace Session

open JavaOutline.Graph

variable {g g' : Graph} {s : String} {t : EntityId} {u : UnitId} {q : Step}

/-- Whether an operation asks for something and has no other purpose. -/
def isQuery : Call → Bool
  | .setModifiers _ | .setComment _ | .setTags _ => false
  | .setParent _ | .setParentUnit _ | .freeze => false
  | .addField _ | .addMethod _ | .addParameter _ | .addType _ | .register _ => false
  | .write _ | .newline | .indent | .deindent => false
  | _ => true

/-- Whether a step asks for something: it makes nothing, changes no handle, assigns nothing, and
calls no operation that changes its object. -/
def Step.isQuery : Step → Bool
  | .new .. | .set .. | .drop _ | .hold .. => false
  | .call _ c => Session.isQuery c
  | _ => true

/-- The step looks up the name of the package of a type whose unit is live, and the name that is
noted beside the type is another one. -/
def NotesAnew (g : Graph) (q : Step) : Prop :=
  ∃ s t u, (q = .call s .packageName ∨ q = .call s .qualifiedName) ∧
    g.bound? s = some (.entity t) ∧ g.parentUnit? t = some u ∧
    (g.entity t).form.noted ≠ (g.unit u).packageName

/-! ## What a query does -/

theorem act?_of_isQuery {c : Call} (hc : isQuery c = true) (r : Ref) : act? g r c = none := by
  cases c <;> cases hc <;> cases r <;> rfl

theorem call_query (g : Graph) (r : Ref) {c : Call} (hc : isQuery c = true) :
    (call g r c).1 = g ∨ ∃ t, (c = .packageName ∨ c = .qualifiedName) ∧ r = .entity t ∧
      (call g r c).1 = (g.packageName t).2 := by
  rw [call.eq_def]
  split
  next t =>
    split
    · exact .inr ⟨t, .inl rfl, rfl, rfl⟩
    · exact .inl rfl
  next t =>
    split
    · exact .inr ⟨t, .inr rfl, rfl, rfl⟩
    · exact .inl rfl
  next => cases hc
  next =>
    simp only [act?_of_isQuery hc]
    split <;> exact .inl rfl

/-- A query leaves the graph as it is, or notes a name. -/
theorem step_query (g : Graph) (hq : q.isQuery = true) : (step g q).1 = g ∨
    ∃ s t, (q = .call s .packageName ∨ q = .call s .qualifiedName) ∧
      g.bound? s = some (.entity t) ∧ (step g q).1 = (g.packageName t).2 := by
  have hread (s : String) (f : Ref → Reply) : (withRef g s fun r ↦ (g, f r)).1 = g := by
    rw [withRef]
    split <;> rfl
  cases q with
  | new | set | drop | hold => cases hq
  | call s c =>
    rw [step, withRef]
    split
    next r hr =>
      rcases call_query g r hq with h | ⟨t, hc, rfl, h⟩
      · exact .inl h
      · exact .inr ⟨s, t, hc.imp (congrArg _) (congrArg _), bound?_of_find hr, h⟩
    next => exact .inl rfl
  | get | render | describe | «show» => exact .inl (hread _ _)
  | _ => exact .inl rfl

/-! ## What is noted -/

theorem parentUnit?_eq_some (hu : g.parentUnit? t = some u) : ∃ head fs ms noted,
    (g.entity t).form = .type head fs ms (some u) noted ∧ g.unitIsLive u = true := by
  rw [parentUnit?] at hu
  split at hu
  next head fs ms v noted ht =>
    obtain ⟨rfl, hlive⟩ := Option.filter_eq_some_iff.1 hu
    exact ⟨head, fs, ms, noted, ht, hlive⟩
  next => cases hu

/-- Looking up a package whose unit is live: the name becomes the note. -/
theorem packageName_snd_of_some {head : TypeHead} {fs ms : List EntityId} {noted : String}
    (ht : (g.entity t).form = .type head fs ms (some u) noted) (hu : g.unitIsLive u = true) :
    (g.packageName t).2 =
      g.modifyForm t fun _ ↦ .type head fs ms (some u) (g.unit u).packageName := by
  have hlive : g.parentUnit? t = some u := by
    rw [parentUnit?, ht]
    exact Option.filter_eq_some_iff.2 ⟨rfl, hu⟩
  rw [packageName]
  split
  next ht' =>
    rw [hlive]
    cases ht'.symm.trans ht
    exact modifyEntity_congr (by rw [ht])
  next hne => exact absurd ht (hne head fs ms (some u) noted)

theorem packageName_snd_of_none (hu : g.parentUnit? t = none) : (g.packageName t).2 = g := by
  rw [packageName]
  split
  next => rw [hu]
  next => rfl

theorem noted_packageName (hu : g.parentUnit? t = some u) :
    ((g.packageName t).2.entity t).form.noted = (g.unit u).packageName := by
  obtain ⟨head, fs, ms, noted, ht, hlive⟩ := parentUnit?_eq_some hu
  have hlt : t < g.entities.length := lt_of_kind_eq_type (by rw [ht]; rfl)
  rw [packageName_snd_of_some ht hlive, modifyForm, entity_modifyEntity, if_pos ⟨rfl, hlt⟩]
  rfl

/-- A name that is noted already is noted again without a trace. -/
theorem packageName_snd_of_noted
    (h : ∀ u, g.parentUnit? t = some u → (g.entity t).form.noted = (g.unit u).packageName) :
    (g.packageName t).2 = g := by
  cases hu : g.parentUnit? t with
  | none => exact packageName_snd_of_none hu
  | some u =>
    have hid : g.modifyEntity t id = g := by rw [modifyEntity, List.modify_id]
    have hn := h u hu
    obtain ⟨head, fs, ms, noted, ht, hlive⟩ := parentUnit?_eq_some hu
    rw [packageName_snd_of_some ht hlive]
    refine Eq.trans (modifyEntity_congr ?_) hid
    change ({ g.entity t with form := _ } : Entity) = g.entity t
    rw [← hn, ht, Form.noted, ← ht]

theorem step_eq_of_not_notesAnew (hq : q.isQuery = true) (h : ¬ NotesAnew g q) :
    (step g q).1 = g := by
  rcases step_query g hq with hg | ⟨s, t, hc, hs, hg⟩
  · exact hg
  · rw [hg]
    apply packageName_snd_of_noted
    intro u hu
    by_contra hne
    exact h ⟨s, t, u, hc, hs, hu, hne⟩

/-! ## Runs -/

theorem run_append (g : Graph) (ss ss' : List Step) :
    run g (ss ++ ss') = ((run (run g ss).1 ss').1, (run g ss).2 ++ (run (run g ss).1 ss').2) := by
  induction ss generalizing g with
  | nil => rfl
  | cons s ss ih =>
    rw [List.cons_append, run, run]
    dsimp only
    rw [ih]
    rfl

theorem length_run (g : Graph) (ss : List Step) : (run g ss).2.length = ss.length := by
  induction ss generalizing g with
  | nil => rfl
  | cons s ss ih => exact congrArg (· + 1) (ih _)

/-- Leaving out a step makes no difference to the others if the steps behind it answer the same
without it. -/
theorem run_eraseIdx_iff (pre post : List Step) (q : Step) :
    (run g (pre ++ q :: post)).2.eraseIdx pre.length = (run g (pre ++ post)).2 ↔
      (run (step (run g pre).1 q).1 post).2 = (run (run g pre).1 post).2 := by
  rw [run_append, run_append, ← length_run g pre,
    List.eraseIdx_append_of_length_le (Nat.le_refl _), Nat.sub_self]
  exact List.append_right_inj (run g pre).2

/-! ## Telling two notes apart -/

/-- Letting go of handles. -/
theorem run_drops (g : Graph) (names : List String) :
    run g (names.map .drop) = ({ g with handles := g.handles.filter (·.1 ∉ names) },
      names.map fun _ ↦ { result := .ok .nothing }) := by
  induction names generalizing g with
  | nil => simp [run]
  | cons n names ih =>
    rw [List.map_cons, run]
    dsimp only [step]
    rw [ih]
    have hfilter : (g.drop n).handles.filter (·.1 ∉ names) =
        g.handles.filter (·.1 ∉ n :: names) := by
      rw [drop, List.filter_filter]
      refine List.filter_congr fun p _ ↦ ?_
      by_cases hp : p.1 = n <;> simp [hp]
    rw [hfilter]
    rfl

/-- The names of all handles but one. -/
def others (g : Graph) (s : String) : List String := (g.handles.map (·.1)).filter (· ≠ s)

/-- The graph in which only one handle is left. -/
def holding (g : Graph) (s : String) : Graph :=
  { g with handles := g.handles.filter (·.1 ∉ others g s) }

theorem mem_handles_of_bound? {r : Ref} (hs : g.bound? s = some r) : (s, r) ∈ g.handles := by
  obtain ⟨l₁, l₂, hl, -⟩ := List.lookup_eq_some_iff.1 hs
  rw [hl]
  simp

theorem handles_holding (hg : g.Closed) {r : Ref} (hs : g.bound? s = some r) :
    ∀ p ∈ (holding g s).handles, p = (s, r) := by
  intro p hp
  obtain ⟨hp, hn⟩ := List.mem_filter.1 hp
  have hps : p.1 = s := by
    by_contra hne
    refine of_decide_eq_true hn (List.mem_filter.2 ⟨List.mem_map_of_mem hp, ?_⟩)
    simpa using hne
  exact List.inj_on_of_nodup_map hg.distinct hp (mem_handles_of_bound? hs) hps

theorem bound?_holding (hg : g.Closed) {r : Ref} (hs : g.bound? s = some r) :
    (holding g s).bound? s = some r := by
  have hmem : (s, r) ∈ (holding g s).handles := by
    refine List.mem_filter.2 ⟨mem_handles_of_bound? hs, decide_eq_true ?_⟩
    intro h
    simpa using (List.mem_filter.1 h).2
  have hall := handles_holding hg hs
  rw [bound?]
  cases hl : (holding g s).handles with
  | nil => rw [hl] at hmem; cases hmem
  | cons p l =>
    rw [hall p (by rw [hl]; exact List.mem_cons_self)]
    exact List.lookup_cons_self

/-- Once nothing else is held, a type answers with the name that is noted. -/
theorem packageName_holding (hg : g.Closed) (hs : g.bound? s = some (.entity t)) :
    ((holding g s).packageName t).1 = (g.entity t).form.noted := by
  have hdead (u : UnitId) : (holding g s).unitIsLive u = false := by
    rw [Bool.eq_false_iff]
    intro h
    rcases unitIsLive_iff.1 h with h | ⟨r, h, -⟩
    all_goals
      obtain ⟨p, hp, hpr⟩ := List.any_eq_true.1 h
      rw [handles_holding hg hs p hp] at hpr
      cases beq_iff_eq.1 hpr
  rw [packageName_fst, funext hdead]
  change ((g.entity t).form.packageName _ _) = _
  cases (g.entity t).form with
  | type head fs ms u noted => cases u <;> rfl
  | _ => rfl

/-- Letting go of everything but a type and asking for its package answers with what is noted. -/
theorem run_others (hg : g.Closed) (hs : g.bound? s = some (.entity t))
    (ht : isType g t = true) :
    (run g ((others g s).map .drop ++ [.call s .packageName])).2 =
      ((others g s).map fun _ ↦ { result := .ok .nothing }) ++
        [{ result := .ok (.text (g.entity t).form.noted) }] := by
  have hfind : find (holding g s) s = .ok (.entity t) := by rw [find, bound?_holding hg hs]
  have hstep : (step (holding g s) (.call s .packageName)).2 =
      { result := .ok (.text (g.entity t).form.noted) } := by
    have ht : isType (holding g s) t = true := ht
    rw [step, withRef, hfind]
    simp only [call, ht, if_true, packageName_holding hg hs]
  rw [run_append, run_drops]
  change _ ++ [(step (holding g s) (.call s .packageName)).2] = _
  rw [hstep]

/-- A name that is noted anew is answered later on, in place of the one before. -/
theorem run_others_ne (hg : g.Closed) (hs : g.bound? s = some (.entity t))
    (hu : g.parentUnit? t = some u) (hne : (g.entity t).form.noted ≠ (g.unit u).packageName) :
    (run (g.packageName t).2 ((others g s).map .drop ++ [.call s .packageName])).2 ≠
      (run g ((others g s).map .drop ++ [.call s .packageName])).2 := by
  have hsame := SameLinks.packageName g t
  have hothers : others g s = others (g.packageName t).2 s := by
    rw [others, others, hsame.handles]
  have hs' : (g.packageName t).2.bound? s = some (.entity t) := by
    rw [bound?, hsame.handles]
    exact hs
  obtain ⟨head, fs, ms, noted, ht, -⟩ := parentUnit?_eq_some hu
  have htype : isType g t = true := by rw [isType, ht]
  have htype' : isType (g.packageName t).2 t = true := by
    have hk := hsame.kind t (lt_of_kind_eq_type (by rw [ht]; rfl))
    rw [ht] at hk
    rw [isType]
    cases hf : ((g.packageName t).2.entity t).form <;> rw [hf] at hk <;> first | rfl | cases hk
  rw [run_others hg hs htype]
  intro h
  rw [hothers, run_others (hsame.closed hg) hs' htype', noted_packageName hu] at h
  have h := (List.append_inj' h rfl).2
  injection h with h
  injection h with h
  injection h with h
  injection h with h
  exact hne h.symm

/-- A query can be left out of a session without any other step answering differently, whatever
comes before and after, exactly if it notes nothing new beside a type. -/
theorem run_without_query {pre : List Step} (hb : ∀ s ∈ pre, s.makesBare = true) {g : Graph}
    (hg : (run {} pre).1 = g) {q : Step} (hq : q.isQuery = true) :
    (∀ post, (run {} (pre ++ q :: post)).2.eraseIdx pre.length = (run {} (pre ++ post)).2) ↔
      ¬ NotesAnew g q := by
  have hclosed : g.Closed := hg ▸ closed_run hb .empty
  constructor
  · rintro h ⟨s, t, u, hc, hs, hu, hne⟩
    have hstep : (step g q).1 = (g.packageName t).2 := by
      obtain ⟨head, fs, ms, noted, ht, -⟩ := parentUnit?_eq_some hu
      have htype : isType g t = true := by rw [isType, ht]
      rcases hc with rfl | rfl <;> simp only [step, withRef, find, hs, call, htype, if_true]
      rfl
    refine run_others_ne hclosed hs hu hne ?_
    rw [← hstep]
    have hpost := (run_eraseIdx_iff pre _ q).1
      (h ((others g s).map .drop ++ [.call s .packageName]))
    rwa [hg] at hpost
  · intro h post
    rw [run_eraseIdx_iff, hg, step_eq_of_not_notesAnew hq h]

/-- A qualified name that is looked up while the unit is named as it was can be left out. -/
theorem run_without_query_settled :
    (run {} ([
        .new "u" (.unit none (some "a") []),
        .new "t" (.entity { name := "A" } (.type {} [] [] none "")), .call "u" (.addType "t")] ++
      .call "t" .qualifiedName :: [.drop "u", .call "t" .packageName])).2.eraseIdx 3 =
    (run {} ([
        .new "u" (.unit none (some "a") []),
        .new "t" (.entity { name := "A" } (.type {} [] [] none "")), .call "u" (.addType "t")] ++
      [.drop "u", .call "t" .packageName])).2 := by
  refine (run_without_query (by decide) rfl rfl).2 ?_ _
  rintro ⟨s, t, u, hc, hs, hu, hne⟩
  obtain rfl : s = "t" := by
    rcases hc with hc | hc
    · cases hc
    · injection hc with hc
      exact hc.symm
  obtain rfl : t = 0 := by
    have h : (Ref.entity 0) = .entity t := Option.some.inj hs
    injection h with h
    exact h.symm
  obtain rfl : u = 0 := (Option.some.inj hu).symm
  exact hne rfl

/-- A unit is renamed, the name of a type's package is looked up, and the unit is let go of: the
type goes on with the new name, and with the old one if nobody had asked. -/
theorem run_without_query_ne :
    (run {} ([
        .new "u" (.unit none (some "a") []),
        .new "t" (.entity { name := "A" } (.type {} [] [] none "")), .call "u" (.addType "t"),
        .set "u" (.package (some "b"))] ++
      .call "t" .packageName :: [.drop "u", .call "t" .packageName])).2.eraseIdx 4 ≠
    (run {} ([
        .new "u" (.unit none (some "a") []),
        .new "t" (.entity { name := "A" } (.type {} [] [] none "")), .call "u" (.addType "t"),
        .set "u" (.package (some "b"))] ++
      [.drop "u", .call "t" .packageName])).2 := by
  intro h
  have h : Except.ok (Answer.text "b") = (Except.ok (Answer.text "a") : Except Fault Answer) :=
    congrArg (fun replies ↦ (replies.getLastD ⟨.ok .nothing, []⟩).result) h
  injection h with h
  injection h with h
  exact absurd h (by decide)

end Session

end JavaOutline
