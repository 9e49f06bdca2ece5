import JavaOutline.Proofs.Project.Undecodable
import JavaOutline.Proofs.Yaml.Keys
import Mathlib.Data.List.Nodup

/-! # Layers of settings

Settings are made from one mapping, which is put together before anything in it is checked.  It has
what the caller says, below that what the file says, and below that the defaults
(`Settings.overridden`, `Settings.completed`).  So what a file says under a name that the caller
overrides has no part in the settings, nor in what is wrong with them
(`Settings.load_overrides`).

Two things are asked of what is left open: a mapping that is read has each name once
(`Settings.ReadsNamesOnce`), and it makes no difference to the validation whether defaults are
written out (`Settings.FillsIn`).  The tools of the program are of this kind. -/

namespace JavaOutline.Settings

variable {δ ε σ : Type} {values lower : List (String × δ)} {upper : List (String × Option δ)}
  {name : String} {d : δ}

/-! ## Two layers -/

/-- What a layer says under a name. -/
def said? (upper : List (String × Option δ)) (name : String) : Option δ :=
  (upper.lookup name).join

/-- What is said under a name that is none of these. -/
def added? (names : List String) (p : String × Option δ) : Option (String × δ) :=
  if p.1 ∈ names then none else p.2.map (p.1, ·)

/-- The lower layer with what the upper one says under its names, and behind it what the upper one
says under other names. -/
def overridden (lower : List (String × δ)) (upper : List (String × Option δ)) :
    List (String × δ) :=
  lower.map (fun p ↦ (p.1, (said? upper p.1).getD p.2)) ++
    upper.filterMap (added? (lower.map Prod.fst))

theorem put_of_notMem (h : name ∉ values.map Prod.fst) :
    put name d values = values ++ [(name, d)] := by
  induction values with
  | nil => rfl
  | cons p values ih =>
    obtain ⟨hp, hvalues⟩ := not_or.1 (List.mem_cons.not.1 h)
    rw [put, if_neg (Ne.symm hp), ih hvalues]
    rfl

/-- A value is put in its place. -/
theorem put_of_mem (hn : (values.map Prod.fst).Nodup) (h : name ∈ values.map Prod.fst) :
    put name d values = values.map fun p ↦ (p.1, if p.1 = name then d else p.2) := by
  induction values with
  | nil => cases h
  | cons p values ih =>
    obtain ⟨hp, hn⟩ := List.nodup_cons.1 hn
    rw [put, List.map_cons]
    by_cases hname : p.1 = name
    · have hrest : values.map (fun p ↦ (p.1, if p.1 = name then d else p.2)) = values := by
        refine (List.map_congr_left fun p' hp' ↦ ?_).trans (List.map_id values)
        have hne : p'.1 ≠ name := fun heq ↦
          hp (heq.trans hname.symm ▸ List.mem_map_of_mem hp')
        rw [if_neg hne]
        rfl
      rw [if_pos hname, if_pos hname, hrest]
    · rw [if_neg hname, if_neg hname,
        ih hn ((List.mem_cons.1 h).resolve_left (Ne.symm hname))]

theorem keys_put_of_mem (hn : (values.map Prod.fst).Nodup) (h : name ∈ values.map Prod.fst) :
    (put name d values).map Prod.fst = values.map Prod.fst := by
  rw [put_of_mem hn h, List.map_map]
  rfl

theorem nodup_put (hn : (values.map Prod.fst).Nodup) :
    ((put name d values).map Prod.fst).Nodup := by
  by_cases h : name ∈ values.map Prod.fst
  · rw [keys_put_of_mem hn h]
    exact hn
  · rw [put_of_notMem h, List.map_append]
    exact hn.append (List.nodup_singleton name) (List.disjoint_singleton.2 h)

theorem lookup_cons_eq {α : Type} (p : String × α) (values : List (String × α)) (k : String) :
    (p :: values).lookup k = if k = p.1 then some p.2 else values.lookup k := by
  obtain ⟨n, d⟩ := p
  by_cases h : k = n
  · rw [h, List.lookup_cons_self, if_pos rfl]
  · rw [List.lookup_cons, beq_eq_false_iff_ne.2 h, if_neg h]

theorem lookup_put (name : String) (d : δ) (values : List (String × δ)) (k : String) :
    (put name d values).lookup k = if k = name then some d else values.lookup k := by
  induction values with
  | nil => rw [put, lookup_cons_eq]
  | cons p values ih =>
    rw [put]
    split
    next hname =>
      rw [lookup_cons_eq, lookup_cons_eq]
      split
      next hk => rw [if_pos (hk.trans hname)]
      next hk => rw [if_neg fun heq ↦ hk (heq.trans hname.symm)]
    next hname =>
      rw [lookup_cons_eq, lookup_cons_eq, ih]
      split
      next hk => rw [if_neg fun heq ↦ hname (hk.symm.trans heq)]
      next => rfl

theorem said?_of_notMem (h : name ∉ upper.map Prod.fst) : said? upper name = none := by
  have hlookup : upper.lookup name = none :=
    List.lookup_eq_none_iff.2 fun p hp ↦
      bne_iff_ne.2 fun heq ↦ h (heq ▸ List.mem_map_of_mem hp)
  rw [said?, hlookup]
  rfl

theorem said?_cons (p : String × Option δ) (upper : List (String × Option δ)) (name : String) :
    said? (p :: upper) name = if name = p.1 then p.2 else said? upper name := by
  rw [said?, lookup_cons_eq, said?]
  split <;> rfl

/-- A name without a value says nothing. -/
theorem said?_cons_none {n : String} (h : n ∉ upper.map Prod.fst) (name : String) :
    said? ((n, none) :: upper) name = said? upper name := by
  rw [said?_cons]
  split
  next heq => rw [heq, said?_of_notMem h]
  next => rfl

theorem overridden_cons_none {n : String} (h : n ∉ upper.map Prod.fst)
    (lower : List (String × δ)) :
    overridden lower ((n, none) :: upper) = overridden lower upper := by
  have hnone : added? (lower.map Prod.fst) ((n, none) : String × Option δ) = none := ite_self none
  rw [overridden, overridden, List.filterMap_cons_none hnone]
  simp only [said?_cons_none h]

theorem overridden_cons_of_mem {n : String} (h : n ∉ upper.map Prod.fst)
    (hl : (lower.map Prod.fst).Nodup) (hmem : n ∈ lower.map Prod.fst) :
    overridden lower ((n, some d) :: upper) = overridden (put n d lower) upper := by
  have hnone : added? (lower.map Prod.fst) (n, some d) = none := if_pos hmem
  rw [overridden, overridden, keys_put_of_mem hl hmem, put_of_mem hl hmem, List.map_map,
    List.filterMap_cons_none hnone]
  refine congrArg (· ++ _) (List.map_congr_left fun q _ ↦ ?_)
  rw [said?_cons, Function.comp_apply]
  dsimp only
  split
  next hq => rw [hq, said?_of_notMem h]; rfl
  next => rfl

theorem overridden_cons_of_notMem {n : String} (h : n ∉ upper.map Prod.fst)
    (hmem : n ∉ lower.map Prod.fst) :
    overridden lower ((n, some d) :: upper) = overridden (put n d lower) upper := by
  have hlower : lower.map (fun q ↦ (q.1, (said? ((n, some d) :: upper) q.1).getD q.2)) =
      lower.map fun q ↦ (q.1, (said? upper q.1).getD q.2) :=
    List.map_congr_left fun q hq ↦ by
      have hne : q.1 ≠ n := fun heq ↦ hmem (heq ▸ List.mem_map_of_mem hq)
      rw [said?_cons, if_neg hne]
  have hupper : upper.filterMap (added? ((lower ++ [(n, d)]).map Prod.fst)) =
      upper.filterMap (added? (lower.map Prod.fst)) :=
    List.filterMap_congr fun q hq ↦ by
      have hne : q.1 ≠ n := fun heq ↦ h (heq ▸ List.mem_map_of_mem hq)
      have hkeys : (lower ++ [(n, d)]).map Prod.fst = lower.map Prod.fst ++ [n] :=
        List.map_append
      simp only [added?, hkeys, List.mem_append, List.mem_singleton, hne, or_false]
  have hsome : added? (lower.map Prod.fst) (n, some d) = some (n, d) := if_neg hmem
  rw [overridden, overridden, put_of_notMem hmem, hlower, List.map_append, hupper,
    List.filterMap_cons_some hsome, List.append_assoc, List.map_singleton, said?_of_notMem h]
  rfl

/-- Layers are made value by value, and make one mapping. -/
theorem layer_eq_overridden (hl : (lower.map Prod.fst).Nodup) (hu : (upper.map Prod.fst).Nodup) :
    layer lower upper = overridden lower upper := by
  induction upper generalizing lower with
  | nil =>
    rw [overridden, List.filterMap_nil, List.append_nil]
    exact (List.map_id lower).symm
  | cons p upper ih =>
    obtain ⟨n, o⟩ := p
    obtain ⟨hp, hrest⟩ := List.nodup_cons.1 hu
    cases o with
    | none => exact (ih hl hrest).trans (overridden_cons_none hp lower).symm
    | some d =>
      -- the value counts as one of the lower layer from here on
      have hput : ((put n d lower).map Prod.fst).Nodup := nodup_put hl
      refine (ih hput hrest).trans ?_
      by_cases hmem : n ∈ lower.map Prod.fst
      · exact (overridden_cons_of_mem hp hl hmem).symm
      · exact (overridden_cons_of_notMem hp hmem).symm

theorem lookup_layer (hu : (upper.map Prod.fst).Nodup) (lower : List (String × δ))
    (k : String) : (layer lower upper).lookup k = (said? upper k).or (lower.lookup k) := by
  induction upper generalizing lower with
  | nil => rfl
  | cons p upper ih =>
    obtain ⟨n, o⟩ := p
    obtain ⟨hp, hrest⟩ := List.nodup_cons.1 hu
    cases o with
    | none =>
      rw [said?_cons_none hp]
      exact ih hrest lower
    | some d =>
      refine (ih hrest (put n d lower)).trans ?_
      rw [lookup_put, said?_cons]
      split
      next hk => rw [hk, said?_of_notMem hp]; rfl
      next => rfl

theorem nodup_layer (hl : (lower.map Prod.fst).Nodup) (upper : List (String × Option δ)) :
    ((layer lower upper).map Prod.fst).Nodup := by
  induction upper generalizing lower with
  | nil => exact hl
  | cons p upper ih =>
    obtain ⟨n, o⟩ := p
    cases o with
    | none => exact ih hl
    | some d => exact ih (nodup_put hl)

/-- Two lower layers have the same names, and the same values where the upper one says nothing. -/
def AgreeBelow (upper : List (String × Option δ)) (lower lower' : List (String × δ)) : Prop :=
  List.Forall₂ (fun p p' ↦ p.1 = p'.1 ∧ (said? upper p.1 = none → p.2 = p'.2)) lower lower'

namespace AgreeBelow

variable {lower' : List (String × δ)}

theorem keys_eq (h : AgreeBelow upper lower lower') :
    lower.map Prod.fst = lower'.map Prod.fst := by
  induction h with
  | nil => rfl
  | cons hp _ ih => rw [List.map_cons, List.map_cons, hp.1, ih]

theorem overridden_eq (h : AgreeBelow upper lower lower') :
    overridden lower upper = overridden lower' upper := by
  have hvalues : lower.map (fun p ↦ (p.1, (said? upper p.1).getD p.2)) =
      lower'.map fun p ↦ (p.1, (said? upper p.1).getD p.2) := by
    induction h with
    | nil => rfl
    | @cons p p' _ _ hp _ ih =>
      have hvalue : (said? upper p.1).getD p.2 = (said? upper p.1).getD p'.2 := by
        cases hsaid : said? upper p.1 with
        | none => exact hp.2 hsaid
        | some d => rfl
      rw [List.map_cons, List.map_cons, ih, hvalue, hp.1]
  rw [overridden, overridden, h.keys_eq, hvalues]

end AgreeBelow

/-! ## Defaults -/

/-- The values with the default of each setting that has none among them. -/
def completed (defaults values : List (String × δ)) : List (String × δ) :=
  values ++ defaults.filter fun p ↦ !(values.map Prod.fst).contains p.1

/-- The validation has these defaults: each setting has one, and it makes no difference whether they
are written out. -/
structure FillsIn (validate : List (String × δ) → Except ε σ) (defaults : List (String × δ)) :
    Prop where
  nodup : (defaults.map Prod.fst).Nodup
  completed : ∀ values, (values.map Prod.fst).Nodup →
    validate (completed defaults values) = validate values

variable {defaults : List (String × δ)}

theorem lookup_completed (defaults values : List (String × δ)) (k : String) :
    (completed defaults values).lookup k = (values.lookup k).or (defaults.lookup k) := by
  rw [completed, List.lookup_append]
  cases h : values.lookup k with
  | some d => rfl
  | none =>
    have hk : (values.map Prod.fst).contains k = false := by
      rw [← Bool.not_eq_true, List.contains_iff_mem, List.mem_map]
      rintro ⟨p, hp, rfl⟩
      exact bne_iff_ne.1 (List.lookup_eq_none_iff.1 h p hp) rfl
    rw [lookup_filter fun d ↦ by rw [hk]; rfl]

theorem nodup_completed (hd : (defaults.map Prod.fst).Nodup) (hn : (values.map Prod.fst).Nodup) :
    ((completed defaults values).map Prod.fst).Nodup := by
  rw [completed, List.map_append]
  refine hn.append (hd.sublist (List.filter_sublist.map Prod.fst)) fun n hn hd ↦ ?_
  obtain ⟨p, hp, rfl⟩ := List.mem_map.1 hd
  have habsent := (List.mem_filter.1 hp).2
  rw [List.contains_iff_mem.2 hn] at habsent
  cases habsent

/-! ## The layers of a run -/

/-- A mapping that is read has each name once. -/
def ReadsNamesOnce (read : ByteArray → Loaded δ) : Prop :=
  ∀ bytes entries, read bytes = .mapping entries → (entries.filterMap Prod.fst).Nodup

variable {read : ByteArray → Loaded δ} {validate : List (String × δ) → Except ε σ}
  {t : FileTree} {path : Option String} {file : List (String × δ)}

theorem valuesOf?_map_some (values : List (String × δ)) :
    valuesOf? (values.map fun p ↦ (some p.1, p.2)) = some values := by
  induction values with
  | nil => rfl
  | cons p values ih =>
    rw [List.map_cons, valuesOf?, ih]
    rfl

/-- The values that the configuration file gives: those of the mapping that is read from it, whose
names are texts, and none if there is no file. -/
inductive FileValues (read : ByteArray → Loaded δ) (t : FileTree) (path : Option String) :
    List (String × δ) → Prop
  | mapping {values : List (String × δ)} {bytes : ByteArray}
      (hfile : t.find? (target path) = some (.file bytes))
      (hread : read bytes = .mapping (values.map fun p ↦ (some p.1, p.2))) :
      FileValues read t path values
  | missing (h : t.isFile (target path) = false) : FileValues read t path []

namespace FileValues

theorem nodup_keys (h : FileValues read t path values) (hread : ReadsNamesOnce read) :
    (values.map Prod.fst).Nodup := by
  cases h with
  | mapping _ hmapping =>
    have hnames := hread _ _ hmapping
    have heq : (values.map fun p ↦ (some p.1, p.2)).filterMap Prod.fst = values.map Prod.fst := by
      rw [List.filterMap_map]
      exact congrFun List.filterMap_eq_map' values
    rwa [heq] at hnames
  | missing => exact List.nodup_nil

theorem result_load (h : FileValues read t path values) (caller : List (String × Option δ)) :
    (load read validate t path caller).2 =
      (validate (layer values caller)).mapError .invalid := by
  cases h with
  | mapping hfile hmapping =>
    obtain ⟨log, hentries⟩ := fileEntries_of_file ε read hfile
    rw [load, hentries, hmapping]
    refine (bind_of_eq_ok rfl _).trans ?_
    rw [ofEntries, valuesOf?_map_some]
  | missing hmissing =>
    rw [load]
    dsimp only
    rw [fileEntries_of_noFile hmissing]
    rfl

end FileValues

/-! ## The tools of the program -/

section

/-- The values that the settings have when nothing is said. -/
def ownDefaults : List (String × Datum) :=
  let d : Settings := {}
  [("source_directories", .list (d.sourceDirectories.map .text)),
   ("ignored_patterns", .list (d.ignoredPatterns.map .text)), ("encoding", .text d.encoding),
   ("indent", .text d.indent), ("log_level", .text d.logLevel),
   ("respect_gitignore", .bool d.respectGitignore)]

variable {values : List (String × Datum)} {d : Datum}

theorem checkItems_texts (setting : String) (n : ℕ) (ss : List String) :
    checkItems setting n (ss.map .text) = .ok ss := by
  induction ss generalizing n with
  | nil => rfl
  | cons s ss ih =>
    rw [List.map_cons, checkItems, ih]
    rfl

/-- A default that passes its check is the value of its setting when there is none. -/
theorem named_completed {α : Type} {check : String → Datum → Checked α} {a : α}
    (hd : ownDefaults.lookup name = some d) (hcheck : check name d = .ok a) :
    named (completed ownDefaults values) name check a = named values name check a := by
  rw [named, named, lookup_completed]
  cases values.lookup name with
  | some e => rfl
  | none =>
    rw [hd]
    exact hcheck

/-- Defaults are no extras. -/
theorem extras_completed (values : List (String × Datum)) :
    (completed ownDefaults values).filter (fun p ↦ !names.contains p.1) =
      values.filter fun p ↦ !names.contains p.1 := by
  have hnames : ∀ p ∈ ownDefaults, names.contains p.1 = true := by decide
  have hnone : ownDefaults.filter (fun p ↦ !names.contains p.1 &&
      !(values.map Prod.fst).contains p.1) = [] :=
    List.filter_eq_nil_iff.2 fun p hp ↦ by
      rw [hnames p hp]
      exact Bool.false_ne_true
  rw [completed, List.filter_append, List.filter_filter, hnone, List.append_nil]

/-- Every default passes its own check, so writing the defaults out changes nothing. -/
theorem fillsIn_ofValues : FillsIn ofValues ownDefaults where
  nodup := by decide
  completed values _ := by
    let d : Settings := {}
    have hdirectories : named (completed ownDefaults values) "source_directories" checkTexts
        d.sourceDirectories = named values "source_directories" checkTexts d.sourceDirectories :=
      named_completed rfl (checkItems_texts "source_directories" 0 d.sourceDirectories)
    have hpatterns : named (completed ownDefaults values) "ignored_patterns" checkTexts
        d.ignoredPatterns = named values "ignored_patterns" checkTexts d.ignoredPatterns :=
      named_completed rfl (checkItems_texts "ignored_patterns" 0 d.ignoredPatterns)
    have hencoding : named (completed ownDefaults values) "encoding" checkText d.encoding =
        named values "encoding" checkText d.encoding := named_completed rfl rfl
    have hindent : named (completed ownDefaults values) "indent" checkText d.indent =
        named values "indent" checkText d.indent := named_completed rfl rfl
    have hlevel : named (completed ownDefaults values) "log_level" checkText d.logLevel =
        named values "log_level" checkText d.logLevel := named_completed rfl rfl
    have hrespect : named (completed ownDefaults values) "respect_gitignore" checkBool
        d.respectGitignore = named values "respect_gitignore" checkBool d.respectGitignore :=
      named_completed rfl rfl
    rw [ofValues, ofValues, hdirectories, hpatterns, hencoding, hindent, hlevel, hrespect,
      extras_completed]

theorem eq_text_of_text? {s : String} (h : d.text? = some s) : d = .text s := by
  cases d with
  | text s' => exact congrArg Datum.text (Option.some.inj h)
  | _ => cases h

/-- A mapping that is read as YAML has each name once, as it has each key once. -/
theorem readsNamesOnce_ofYaml : ReadsNamesOnce Loaded.ofYaml := by
  intro bytes entries h
  rw [Loaded.ofYaml] at h
  split at h
  next => cases h
  next s _ =>
    split at h
    next => cases h
    next kvs hyaml =>
      have hunique := Yaml.hasUniqueKeys_of_load? hyaml
      rw [Yaml.HasUniqueKeys, List.pairwise_map] at hunique
      cases h
      rw [List.filterMap_map, List.Nodup, List.pairwise_filterMap]
      refine hunique.imp fun {p q} hne n hn m hm hnm ↦ ?_
      have hn : p.1.text? = some n := hn
      have hm : q.1.text? = some m := hm
      rw [eq_text_of_text? hn, eq_text_of_text? hm, hnm] at hne
      exact beq_eq_false_iff_ne.1 hne rfl
    next => cases h

end

/-! ## Settings as they are loaded -/

/-- The settings, and likewise what is wrong with them, are those that one mapping is validated to.
It has each name once, and under it what the caller says, else what the file says, and else the
default.  So a file with the same names whose values differ only where the caller overrides them
comes to the same, whether these values fit or not. -/
theorem load_overrides {caller : List (String × Option δ)} (hread : ReadsNamesOnce read)
    (hdefaults : FillsIn validate defaults) (hf : FileValues read t path file)
    (hc : (caller.map Prod.fst).Nodup) :
    (load read validate t path caller).2 =
        (validate (overridden file caller)).mapError .invalid ∧
    (load read validate t path caller).2 =
        (validate (completed defaults (overridden file caller))).mapError .invalid ∧
    ((completed defaults (overridden file caller)).map Prod.fst).Nodup ∧
    (∀ name, (completed defaults (overridden file caller)).lookup name =
      (said? caller name).or ((file.lookup name).or (defaults.lookup name))) ∧
    ∀ (t' : FileTree) (path' : Option String) (file' : List (String × δ)),
      FileValues read t' path' file' → AgreeBelow caller file file' →
        (load read validate t' path' caller).2 = (load read validate t path caller).2 := by
  have hnames := hf.nodup_keys hread
  have hlayers := layer_eq_overridden hnames hc
  have hnodup : ((overridden file caller).map Prod.fst).Nodup :=
    hlayers ▸ nodup_layer hnames caller
  refine ⟨?_, ?_, nodup_completed hdefaults.nodup hnodup, fun name ↦ ?_,
    fun t' path' file' hf' hagree ↦ ?_⟩
  · rw [hf.result_load, hlayers]
  · rw [hf.result_load, hlayers, hdefaults.completed _ hnodup]
  · rw [lookup_completed, ← hlayers, lookup_layer hc, Option.or_assoc]
  · rw [hf.result_load, hf'.result_load, hlayers,
      layer_eq_overridden (hf'.nodup_keys hread) hc, hagree.overridden_eq]

/-- The texts under the texts of a mapping that has nothing else. -/
def textsOf? : List (Option String × Datum) → Option (List (String × String))
  | [] => some []
  | (some k, .text s) :: r => (textsOf? r).map ((k, s) :: ·)
  | _ :: _ => none

theorem eq_of_textsOf? {entries : List (Option String × Datum)} {ps : List (String × String)}
    (h : textsOf? entries = some ps) : entries = ps.map fun p ↦ (some p.1, .text p.2) := by
  induction entries generalizing ps with
  | nil =>
    cases h
    rfl
  | cons p entries ih =>
    rw [textsOf?.eq_def] at h
    split at h
    next heq => cases heq
    next k s r heq =>
      obtain ⟨rfl, rfl⟩ := List.cons.inj heq
      obtain ⟨ps, hps, rfl⟩ := Option.map_eq_some_iff.1 h
      exact congrArg ((some k, .text s) :: ·) (ih hps)
    next => cases h

/-- A file of texts under texts is read as one. -/
theorem fileValues_ofYaml {t : FileTree} {path : Option String} (bytes : ByteArray)
    (ps : List (String × String)) (hfile : t.find? (target path) = some (.file bytes))
    (h : (match Loaded.ofYaml bytes with
      | .mapping entries => textsOf? entries
      | _ => none) = some ps) :
    FileValues Loaded.ofYaml t path (ps.map fun p ↦ (p.1, .text p.2)) := by
  split at h
  next entries hread =>
    refine .mapping hfile ?_
    rw [hread, eq_of_textsOf? h, List.map_map]
    rfl
  next => cases h

/-- Neither text is a list, and neither matters below the list that the caller gives; a name without
a value leaves the other value as the file has it. -/
theorem load_overrides_invalid : ∃ (t : FileTree) (caller : List (String × Option Datum)), t =
      { cwd := ["w"]
        files := [
          (["w", "a.yaml"], "source_directories: src\nextra: kept\n".toUTF8),
          (["w", "b.yaml"], "source_directories: lib\nextra: kept\n".toUTF8)] } ∧
    caller = [("source_directories", some (.list [])), ("extra", none)] ∧
    (load Loaded.ofYaml ofValues t (some "a.yaml") caller).2 =
      .ok { sourceDirectories := [], extras := [("extra", .text "kept")] } ∧
    (load Loaded.ofYaml ofValues t (some "b.yaml") caller).2 =
      (load Loaded.ofYaml ofValues t (some "a.yaml") caller).2 ∧
    (load Loaded.ofYaml ofValues t (some "b.yaml") []).2 =
      (load Loaded.ofYaml ofValues t (some "a.yaml") []).2 ∧
    (load Loaded.ofYaml ofValues t (some "a.yaml") []).2 =
      .error (.invalid [{ setting := "source_directories", kind := .notList }]) := by
  refine ⟨_, _, rfl, rfl, ?_⟩
  generalize ht : FileTree.mk _ _ _ _ = t
  have ha : FileValues Loaded.ofYaml t (some "a.yaml")
      [("source_directories", .text "src"), ("extra", .text "kept")] :=
    fileValues_ofYaml "source_directories: src\nextra: kept\n".toUTF8
      [("source_directories", "src"), ("extra", "kept")] (by rw [← ht]; rfl)
      (by decide +kernel)
  have hb : FileValues Loaded.ofYaml t (some "b.yaml")
      [("source_directories", .text "lib"), ("extra", .text "kept")] :=
    fileValues_ofYaml "source_directories: lib\nextra: kept\n".toUTF8
      [("source_directories", "lib"), ("extra", "kept")] (by rw [← ht]; rfl)
      (by decide +kernel)
  have hdistinct : ([("source_directories", some (.list [])), ("extra", none)].map
      (Prod.fst : String × Option Datum → String)).Nodup := by decide
  have hempty : (([] : List (String × Option Datum)).map Prod.fst).Nodup := List.nodup_nil
  obtain ⟨hmade, -, -, -, hsame⟩ :=
    load_overrides readsNamesOnce_ofYaml fillsIn_ofValues ha hdistinct
  have hmadeA := (load_overrides readsNamesOnce_ofYaml fillsIn_ofValues ha hempty).1
  have hmadeB := (load_overrides readsNamesOnce_ofYaml fillsIn_ofValues hb hempty).1
  refine ⟨hmade.trans rfl, hsame t (some "b.yaml") _ hb ?_, hmadeB.trans hmadeA.symm,
    hmadeA.trans rfl⟩
  exact .cons ⟨rfl, nofun⟩ (.cons ⟨rfl, fun _ ↦ rfl⟩ .nil)

end JavaOutline.Settings
