import JavaOutline.Proofs.Outcome
import JavaOutline.Yaml.Document

/-! # Keys of mappings

Of several values under a key the last one counts, so a mapping that a text denotes has each key
once.  This holds of every node as it is read: the value of a mapping is put together key by key,
and an alias only repeats a node.  So all that reading has to keep is that the nodes under the
anchors are of this kind (`Yaml.Read.Keeps`), and then so is the node of the document
(`Yaml.hasUniqueKeys_of_load?`). -/

namespace JavaOutline.Yaml

/-- No key of the mapping is the same as an earlier one. -/
def HasUniqueKeys (kvs : List (Datum × Datum)) : Prop :=
  (kvs.map Prod.fst).Pairwise fun a b ↦ Read.sameKey a b = false

/-- If the node denotes a mapping, then one in which each key stands once. -/
def Node.IsUnique (n : Node) : Prop := ∀ kvs, n.datum = some (.map kvs) → HasUniqueKeys kvs

/-- All nodes under anchors are of this kind. -/
def Reading.IsUnique (r : Reading) : Prop := ∀ a n, (a, some n) ∈ r.anchors → n.IsUnique

namespace Read

/-! ## Nodes -/

theorem keys_put (k v : Datum) (kvs : List (Datum × Datum)) :
    (put k v kvs).map Prod.fst = kvs.map Prod.fst ∨
      (∀ k' ∈ kvs.map Prod.fst, sameKey k' k = false) ∧
        (put k v kvs).map Prod.fst = kvs.map Prod.fst ++ [k] := by
  induction kvs with
  | nil => exact .inr ⟨nofun, rfl⟩
  | cons p kvs ih =>
    obtain ⟨k', v'⟩ := p
    by_cases hk : sameKey k' k = true
    · exact .inl (by rw [put, if_pos hk]; rfl)
    · rw [put, if_neg hk, List.map_cons, List.map_cons]
      refine ih.imp (congrArg (k' :: ·)) ?_
      rintro ⟨hne, heq⟩
      exact ⟨List.forall_mem_cons.2 ⟨eq_false_of_ne_true hk, hne⟩, congrArg (k' :: ·) heq⟩

theorem hasUniqueKeys_put (k v : Datum) {kvs : List (Datum × Datum)} (h : HasUniqueKeys kvs) :
    HasUniqueKeys (put k v kvs) := by
  rw [HasUniqueKeys]
  rcases keys_put k v kvs with heq | ⟨hne, heq⟩
  · exact heq ▸ h
  · rw [heq, List.pairwise_append]
    exact ⟨h, List.pairwise_singleton _ _, fun a ha b hb ↦ List.mem_singleton.1 hb ▸ hne a ha⟩

theorem hasUniqueKeys_foldl (es : List (Datum × Datum)) {kvs : List (Datum × Datum)}
    (h : HasUniqueKeys kvs) : HasUniqueKeys (es.foldl (fun m e ↦ put e.1 e.2 m) kvs) := by
  induction es generalizing kvs with
  | nil => exact h
  | cons e es ih => exact ih (hasUniqueKeys_put e.1 e.2 h)

theorem isUnique_mapping (tag : Option String) (pairs : List (Node × Node)) :
    (mapping tag pairs).IsUnique := by
  intro kvs h
  rw [mapping] at h
  split at h
  next => cases h
  next =>
    obtain ⟨es, -, hes⟩ := Option.map_eq_some_iff.1 h
    cases hes
    exact hasUniqueKeys_foldl es .nil

theorem isUnique_sequence (tag : Option String) (items : List Node) :
    (sequence tag items).IsUnique := by
  intro kvs h
  rw [sequence] at h
  split at h
  next => cases h
  next =>
    obtain ⟨ds, -, hds⟩ := Option.map_eq_some_iff.1 h
    cases hds

theorem isUnique_missing : missing.IsUnique := nofun

end Read

namespace Scalar

/-- If there is a value, then no mapping. -/
def IsSimple (o : Option Datum) : Prop := ∀ kvs, o ≠ some (.map kvs)

theorem IsSimple.or {o o' : Option Datum} (h : IsSimple o) (h' : IsSimple o') :
    IsSimple (o.or o') := by
  cases o with
  | none => exact h'
  | some d => exact h

theorem isSimple_none : IsSimple none := nofun

theorem isSimple_ite {c : Prop} [Decidable c] {o o' : Option Datum} (h : IsSimple o)
    (h' : IsSimple o') : IsSimple (if c then o else o') := by
  split
  · exact h
  · exact h'

theorem isSimple_map {α : Type} {o : Option α} {f : α → Datum} (h : ∀ a kvs, f a ≠ .map kvs) :
    IsSimple (o.map f) := by
  intro kvs hkvs
  obtain ⟨a, -, ha⟩ := Option.map_eq_some_iff.1 hkvs
  exact h a kvs ha

theorem isSimple_int? (cs : List Char) : IsSimple (int? cs) := isSimple_map fun _ _ ↦ nofun

theorem isSimple_decimal? (cs : List Char) : IsSimple (decimal? cs) := by
  rw [decimal?]
  dsimp only
  split
  next =>
    split
    next => exact isSimple_ite (isSimple_map fun _ _ ↦ nofun) isSimple_none
    next => exact isSimple_ite (fun _ ↦ nofun) isSimple_none
    next => exact isSimple_none
  next => exact isSimple_none

theorem isSimple_nonFinite? (cs : List Char) : IsSimple (nonFinite? cs) :=
  isSimple_ite (fun _ ↦ nofun) isSimple_none

/-- A plain scalar is no mapping. -/
theorem ofPlain_ne_map (cs : List Char) (kvs : List (Datum × Datum)) :
    ofPlain cs ≠ .datum (.map kvs) := by
  have hnumber := (isSimple_decimal? cs).or ((isSimple_nonFinite? cs).or (isSimple_int? cs))
  rw [ofPlain]
  split
  · exact nofun
  split
  · exact nofun
  split
  · exact nofun
  split
  · exact nofun
  split
  · exact nofun
  split
  next d hd =>
    intro h
    cases h
    exact hnumber kvs hd
  next => split <;> exact nofun

/-- An explicit tag makes no mapping of a scalar. -/
theorem isSimple_ofTagged? (tag : String) (cs : List Char) : IsSimple (ofTagged? tag cs) := by
  rw [ofTagged?.eq_def]
  split
  · exact fun _ ↦ nofun
  · exact fun _ ↦ nofun
  · exact isSimple_int? cs
  · refine (isSimple_decimal? cs).or ((isSimple_nonFinite? cs).or ?_)
    intro kvs hkvs
    obtain ⟨d, hd, hmap⟩ := Option.map_eq_some_iff.1 hkvs
    cases d with
    | map kvs' => exact isSimple_int? cs kvs' hd
    | _ => cases hmap
  · exact isSimple_ite (fun _ ↦ nofun) (isSimple_ite (fun _ ↦ nofun) isSimple_none)
  · exact isSimple_ite (fun _ ↦ nofun) isSimple_none
  · exact isSimple_none

end Scalar

namespace Read

theorem isUnique_of_isSimple {n : Node} (h : Scalar.IsSimple n.datum) : n.IsUnique :=
  fun kvs hkvs ↦ absurd hkvs (h kvs)

theorem isUnique_ofWritten (text : List Char) (plain : Bool) :
    (scalar.ofWritten text plain).IsUnique := by
  refine isUnique_of_isSimple fun kvs h ↦ ?_
  rw [scalar.ofWritten] at h
  split at h
  next =>
    split at h
    next d hd =>
      cases h
      exact Scalar.ofPlain_ne_map text kvs hd
    next => cases h
    next => cases h
  next => cases h

theorem isUnique_scalar (tag : Option String) (text : List Char) (plain : Bool) :
    (scalar tag text plain).IsUnique := by
  cases tag with
  | none => exact isUnique_ofWritten text plain
  | some t =>
    rw [scalar]
    split
    · exact isUnique_ofWritten text true
    · exact isUnique_of_isSimple (Scalar.isSimple_ofTagged? t text)

/-! ## Steps of reading -/

/-- From a reading whose anchors are unique nodes, the step comes to another such reading, and its
result is of this kind. -/
def Keeps {α : Type} (P : α → Prop) (m : Read α) : Prop :=
  ∀ r a r', r.IsUnique → m.run r = some (a, r') → r'.IsUnique ∧ P a

variable {α β : Type} {P : α → Prop} {Q : β → Prop}

theorem keeps_pure {a : α} (h : P a) : Keeps P (pure a : Read α) := by
  rintro r b r' hr hrun
  cases hrun
  exact ⟨hr, h⟩

theorem keeps_failure : Keeps P (failure : Read α) := fun _ _ _ _ ↦ nofun

theorem Keeps.bind {m : Read α} {f : α → Read β} (h : Keeps P m) (hf : ∀ a, P a → Keeps Q (f a)) :
    Keeps Q (m >>= f) := by
  intro r b r' hr hrun
  rw [StateT.run_bind] at hrun
  obtain ⟨⟨a, r₁⟩, hm, hrest⟩ := Option.bind_eq_some_iff.1 hrun
  obtain ⟨hr₁, ha⟩ := h r a r₁ hr hm
  exact hf a ha r₁ b r' hr₁ hrest

theorem Keeps.map {m : Read α} {f : α → β} (h : Keeps P m) (hf : ∀ a, P a → Q (f a)) :
    Keeps Q (f <$> m) := by
  rw [map_eq_pure_bind]
  exact h.bind fun a ha ↦ keeps_pure (hf a ha)

theorem keeps_get : Keeps Reading.IsUnique (get : Read Reading) := by
  intro r a r' hr hrun
  cases hrun
  exact ⟨hr, hr⟩

theorem keeps_set {r : Reading} (hr : r.IsUnique) (ts : List Token) :
    Keeps (fun _ ↦ True) (set { r with tokens := ts } : Read PUnit) := by
  rintro r₀ a r' - hrun
  cases hrun
  exact ⟨hr, trivial⟩

theorem keeps_modify {f : Reading → Reading} (hf : ∀ r, r.IsUnique → (f r).IsUnique) :
    Keeps (fun _ ↦ True) (modify f : Read Unit) := by
  intro r a r' hr hrun
  cases hrun
  exact ⟨hf r hr, trivial⟩

theorem keeps_take? (p : Token → Bool) : Keeps (fun _ ↦ True) (take? p) := by
  refine keeps_get.bind fun r hr ↦ ?_
  cases r.tokens with
  | nil => exact keeps_pure trivial
  | cons t ts =>
    dsimp only
    split
    · exact (keeps_set hr ts).bind fun _ _ ↦ keeps_pure trivial
    · exact keeps_pure trivial

theorem keeps_nextIs (p : Token → Bool) : Keeps (fun _ ↦ True) (Read.nextIs p) :=
  keeps_get.bind (Q := fun _ ↦ True) fun _ _ ↦ keeps_pure trivial

theorem keeps_expect (t : Token) : Keeps (fun _ ↦ True) (expect t) := by
  refine (keeps_take? _).bind fun o _ ↦ ?_
  cases o with
  | none => exact keeps_failure
  | some t => exact keeps_pure trivial

theorem keeps_fullTag (handle : Option (List Char)) (rest : List Char) :
    Keeps (fun _ ↦ True) (fullTag handle rest) := by
  cases handle with
  | none => exact keeps_pure trivial
  | some h =>
    refine keeps_get.bind fun r _ ↦ ?_
    cases r.handles.lookup (String.ofList h) with
    | none => exact keeps_failure
    | some start => exact keeps_pure trivial

theorem keeps_properties (n : Nat) (anchor tag : Option String) :
    Keeps (fun _ ↦ True) (properties n anchor tag) := by
  induction n generalizing anchor tag with
  | zero => exact keeps_pure trivial
  | succ n ih =>
    rw [properties]
    refine keeps_get.bind fun r _ ↦ ?_
    split
    next a _ =>
      split
      · exact keeps_pure trivial
      · exact (keeps_take? _).bind fun _ _ ↦ ih _ _
    next h t _ =>
      split
      · exact keeps_pure trivial
      · exact (keeps_fullTag h t).bind fun _ _ ↦ (keeps_take? _).bind fun _ _ ↦ ih _ _
    next => exact keeps_pure trivial

theorem keeps_takeAnchor (anchor : Option String) :
    Keeps (fun _ ↦ True) (takeAnchor anchor) := by
  cases anchor with
  | none => exact keeps_pure trivial
  | some a =>
    have hadd : Keeps (fun _ ↦ True)
        (modify fun r ↦ { r with anchors := (a, none) :: r.anchors } : Read Unit) := by
      refine keeps_modify fun r hr b n hn ↦ ?_
      rcases List.mem_cons.1 hn with heq | hn
      · cases heq
      · exact hr b n hn
    refine keeps_get.bind fun r _ ↦ ?_
    dsimp only
    split
    · exact (keeps_failure (P := fun _ ↦ True)).bind fun _ _ ↦ hadd
    · exact hadd

/-- A node can be kept under an anchor if it is unique. -/
theorem keeps_keep (anchor : Option String) {n : Node} (h : n.IsUnique) :
    Keeps Node.IsUnique (keep anchor n) := by
  cases anchor with
  | none => exact keeps_pure h
  | some a =>
    have hadd : Keeps (fun _ ↦ True)
        (modify fun r ↦ { r with anchors := (a, some n) :: r.anchors } : Read Unit) := by
      refine keeps_modify fun r hr b m hm ↦ ?_
      rcases List.mem_cons.1 hm with heq | hm
      · cases heq
        exact h
      · exact hr b m hm
    exact hadd.bind fun _ _ ↦ keeps_pure h

/-- An alias repeats a node that was kept. -/
theorem keeps_aliased (name : String) : Keeps Node.IsUnique (aliased name) := by
  refine keeps_get.bind fun r hr ↦ ?_
  split
  next n hn =>
    obtain ⟨l₁, l₂, hanchors, -⟩ := List.lookup_eq_some_iff.1 hn
    exact keeps_pure (hr name n (by rw [hanchors]; simp))
  next => exact keeps_failure

/-! ## Reading nodes -/

theorem keeps_orEmpty (anchor tag : Option String) :
    Keeps Node.IsUnique (orEmpty anchor tag) := by
  rw [orEmpty]
  split
  · exact keeps_pure (isUnique_scalar tag [] true)
  · exact keeps_failure

/-- With this bound, whatever is read of a node and its parts keeps the anchors. -/
structure KeepsBelow (n : Nat) : Prop where
  node : ∀ block indentless, Keeps Node.IsUnique (node n block indentless)
  blockItems : ∀ ends, Keeps (fun _ ↦ True) (blockItems n ends)
  blockPairs : Keeps (fun _ ↦ True) (blockPairs n)
  flowItems : ∀ first, Keeps (fun _ ↦ True) (flowItems n first)
  flowPairs : ∀ first, Keeps (fun _ ↦ True) (flowPairs n first)

theorem keepsBelow_zero : KeepsBelow 0 where
  node _ _ := by
    rw [Read.node]
    exact keeps_failure
  blockItems _ := by
    rw [Read.blockItems]
    exact keeps_failure
  blockPairs := by
    rw [Read.blockPairs]
    exact keeps_failure
  flowItems _ := by
    rw [Read.flowItems]
    exact keeps_failure
  flowPairs _ := by
    rw [Read.flowPairs]
    exact keeps_failure

variable {n : Nat}

theorem KeepsBelow.node_succ (h : KeepsBelow n) (block indentless : Bool) :
    Keeps Node.IsUnique (Read.node (n + 1) block indentless) := by
  rw [Read.node]
  refine (keeps_take? _).bind fun o _ ↦ ?_
  split
  next => exact keeps_aliased _
  next =>
    refine (keeps_properties 2 none none).bind fun p _ ↦ ?_
    obtain ⟨anchor, tag⟩ := p
    refine (keeps_takeAnchor anchor).bind fun _ _ ↦ keeps_get.bind fun r _ ↦ ?_
    have hkeep {m : Read Node} (hm : Keeps Node.IsUnique m) :
        Keeps Node.IsUnique (m >>= keep anchor) := hm.bind fun v hv ↦ keeps_keep anchor hv
    have hempty := hkeep (keeps_orEmpty anchor tag)
    dsimp only
    split
    next => exact (keeps_take? _).bind fun _ _ ↦ hkeep (keeps_pure (isUnique_scalar _ _ _))
    next =>
      exact (keeps_take? _).bind fun _ _ ↦
        hkeep ((h.flowItems true).map fun _ _ ↦ isUnique_sequence _ _)
    next =>
      exact (keeps_take? _).bind fun _ _ ↦
        hkeep ((h.flowPairs true).map fun _ _ ↦ isUnique_mapping _ _)
    next =>
      split
      · exact (keeps_take? _).bind fun _ _ ↦ (h.blockItems _).bind fun _ _ ↦
          (keeps_expect _).bind fun _ _ ↦ hkeep (keeps_pure (isUnique_sequence _ _))
      · exact hempty
    next =>
      split
      · exact (keeps_take? _).bind fun _ _ ↦ h.blockPairs.bind fun _ _ ↦
          (keeps_expect _).bind fun _ _ ↦ hkeep (keeps_pure (isUnique_mapping _ _))
      · exact hempty
    next =>
      split
      · exact hkeep ((h.blockItems _).map fun _ _ ↦ isUnique_sequence _ _)
      · exact hempty
    next => exact hempty

/-- A node that may be missing. -/
theorem keeps_ite_missing {b : Bool} {m : Read Node} {f : Node → Read β}
    (hm : Keeps Node.IsUnique m) (hf : ∀ v, v.IsUnique → Keeps Q (f v)) :
    Keeps Q (if b = true then pure missing >>= f else m >>= f) := by
  split
  · exact (keeps_pure isUnique_missing).bind hf
  · exact hm.bind hf

/-- The value of a pair, whose mark may be missing as well. -/
theorem keeps_value (ends : Token → Bool) {m : Read Node} {f : Node → Read β}
    (hm : Keeps Node.IsUnique m) (hf : ∀ v, v.IsUnique → Keeps Q (f v)) :
    Keeps Q (do
      match ← take? (· == .value) with
      | none => pure missing >>= f
      | some _ => do
        let b ← Read.nextIs ends
        if b = true then pure missing >>= f else m >>= f) := by
  refine (keeps_take? _).bind fun o _ ↦ ?_
  cases o with
  | none => exact (keeps_pure isUnique_missing).bind hf
  | some t => exact (keeps_nextIs ends).bind fun b _ ↦ keeps_ite_missing hm hf

/-- A comma in front of all items but the first. -/
theorem keeps_ite_expect {c : Prop} [Decidable c] {t : Token} {m : Read β} (hm : Keeps Q m) :
    Keeps Q (if c then expect t >>= fun _ ↦ m else m) := by
  split
  · exact (keeps_expect t).bind fun _ _ ↦ hm
  · exact hm

theorem KeepsBelow.blockItems_succ (h : KeepsBelow n) (ends : Token → Bool) :
    Keeps (fun _ ↦ True) (Read.blockItems (n + 1) ends) := by
  rw [Read.blockItems]
  refine (keeps_take? _).bind fun o _ ↦ ?_
  cases o with
  | none => exact keeps_pure trivial
  | some t =>
    refine (keeps_nextIs ends).bind fun b _ ↦ keeps_ite_missing (h.node true false) fun _ _ ↦ ?_
    exact (h.blockItems ends).bind fun _ _ ↦ keeps_pure trivial

theorem KeepsBelow.blockPairs_succ (h : KeepsBelow n) :
    Keeps (fun _ ↦ True) (Read.blockPairs (n + 1)) := by
  rw [Read.blockPairs]
  refine (keeps_take? _).bind fun o _ ↦ ?_
  cases o with
  | none => exact keeps_pure trivial
  | some t =>
    refine (keeps_nextIs endsKey).bind fun b _ ↦ keeps_ite_missing (h.node true true) fun _ _ ↦ ?_
    refine keeps_value endsKey (h.node true true) fun _ _ ↦ ?_
    exact h.blockPairs.bind fun _ _ ↦ keeps_pure trivial

theorem KeepsBelow.flowItems_succ (h : KeepsBelow n) (first : Bool) :
    Keeps (fun _ ↦ True) (Read.flowItems (n + 1) first) := by
  rw [Read.flowItems]
  refine (keeps_take? _).bind fun o _ ↦ ?_
  have hnode := h.node false false
  cases o with
  | some t => exact keeps_pure trivial
  | none =>
    refine keeps_ite_expect ((keeps_take? _).bind fun o _ ↦ ?_)
    cases o with
    | some t =>
      refine (keeps_nextIs _).bind fun b _ ↦ keeps_ite_missing hnode fun _ _ ↦ ?_
      refine keeps_value endsFlowItem hnode fun _ _ ↦ ?_
      exact (h.flowItems false).bind fun _ _ ↦ keeps_pure trivial
    | none =>
      refine (keeps_nextIs _).bind fun b _ ↦ ?_
      split
      · exact h.flowItems false
      · exact hnode.bind fun _ _ ↦ (h.flowItems false).bind fun _ _ ↦ keeps_pure trivial

theorem KeepsBelow.flowPairs_succ (h : KeepsBelow n) (first : Bool) :
    Keeps (fun _ ↦ True) (Read.flowPairs (n + 1) first) := by
  rw [Read.flowPairs]
  refine (keeps_take? _).bind fun o _ ↦ ?_
  have hnode := h.node false false
  cases o with
  | some t => exact keeps_pure trivial
  | none =>
    refine keeps_ite_expect ((keeps_take? _).bind fun o _ ↦ ?_)
    cases o with
    | some t =>
      refine (keeps_nextIs _).bind fun b _ ↦ keeps_ite_missing hnode fun _ _ ↦ ?_
      refine keeps_value endsFlowPair hnode fun _ _ ↦ ?_
      exact (h.flowPairs false).bind fun _ _ ↦ keeps_pure trivial
    | none =>
      refine (keeps_nextIs _).bind fun b _ ↦ ?_
      split
      · exact h.flowPairs false
      · exact hnode.bind fun _ _ ↦ (h.flowPairs false).bind fun _ _ ↦ keeps_pure trivial

theorem keepsBelow (n : Nat) : KeepsBelow n := by
  induction n with
  | zero => exact keepsBelow_zero
  | succ n ih =>
    exact ⟨ih.node_succ, ih.blockItems_succ, ih.blockPairs_succ, ih.flowItems_succ,
      ih.flowPairs_succ⟩

/-! ## Documents -/

theorem keeps_directives (n : Nat) (versioned : Bool) (seen : List String) :
    Keeps (fun _ ↦ True) (directives n versioned seen) := by
  induction n generalizing versioned seen with
  | zero => exact keeps_pure trivial
  | succ n ih =>
    rw [directives]
    refine (keeps_take? _).bind fun o _ ↦ ?_
    have hfail (m : Read Unit) : Keeps (fun _ ↦ True) ((failure : Read Unit) >>= fun _ ↦ m) :=
      (keeps_failure (P := fun _ ↦ False)).bind fun _ ↦ False.elim
    split
    next =>
      dsimp only
      split
      · exact hfail _
      · exact ih true seen
    next h u =>
      have hrest := (keeps_modify (f := fun r ↦
        { r with handles := (String.ofList h, String.ofList u) :: r.handles }) fun _ hr ↦ hr).bind
          fun _ _ ↦ ih versioned (String.ofList h :: seen)
      dsimp only
      split
      · exact hfail _
      · exact hrest
    next => exact ih versioned seen
    next => exact keeps_pure trivial

theorem keeps_documentEnds (n : Nat) : Keeps (fun _ ↦ True) (documentEnds n) := by
  induction n with
  | zero => exact keeps_pure trivial
  | succ n ih =>
    rw [documentEnds]
    refine (keeps_take? _).bind fun o _ ↦ ?_
    cases o with
    | none => exact keeps_pure trivial
    | some t => exact ih

/-- A document that leaves its node to a computation keeps what this keeps. -/
theorem keeps_documentNode {f : Node → Read β} (bound : Nat) (explicit : Bool)
    (hf : ∀ v, v.IsUnique → Keeps Q (f v)) : Keeps Q (do
      let r ← get
      let ends ← nextIs endsDocument
      if (explicit && (r.tokens.isEmpty || ends)) = true then pure missing >>= f
      else node bound true false >>= f) :=
  keeps_get.bind fun _ _ ↦ (keeps_nextIs _).bind fun _ _ ↦
    keeps_ite_missing ((keepsBelow bound).node true false) hf

theorem keeps_documentDatum (bound : Nat) {v : Node} (hv : v.IsUnique) :
    Keeps (fun o ↦ ∀ kvs, o = some (.map kvs) → HasUniqueKeys kvs) (do
      documentEnds bound
      let r ← get
      if r.tokens.isEmpty = true then
        match v.datum with
        | some d => return some d
        | none => failure
      else failure) := by
  refine (keeps_documentEnds bound).bind fun _ _ ↦ keeps_get.bind fun r _ ↦ ?_
  split
  · split
    next d hd => exact keeps_pure fun kvs hkvs ↦ hv kvs (hd.trans hkvs)
    next => exact keeps_failure
  · exact keeps_failure

/-- If the document denotes a mapping, then one in which each key stands once. -/
theorem keeps_document (bound : Nat) :
    Keeps (fun o ↦ ∀ kvs, o = some (.map kvs) → HasUniqueKeys kvs) (document bound) := by
  rw [document]
  refine keeps_get.bind fun r _ ↦ ?_
  split
  · exact keeps_pure fun _ ↦ nofun
  · refine (keeps_nextIs _).bind fun explicit _ ↦ ?_
    dsimp only
    split
    · refine (keeps_directives _ _ _).bind fun _ _ ↦ (keeps_expect _).bind fun _ _ ↦ ?_
      exact keeps_documentNode bound explicit fun v ↦ keeps_documentDatum bound
    · exact keeps_documentNode bound explicit fun v ↦ keeps_documentDatum bound

end Read

/-- A mapping that a text denotes has each key once. -/
theorem hasUniqueKeys_of_load? {s : String} {kvs : List (Datum × Datum)}
    (h : load? s = some (.map kvs)) : HasUniqueKeys kvs := by
  obtain ⟨tokens, -, hdocument⟩ := Option.bind_eq_some_iff.1 h
  obtain ⟨⟨o, r⟩, hrun, hd⟩ := Option.bind_eq_some_iff.1 hdocument
  have hstart : Reading.IsUnique { tokens } := fun _ _ hmem ↦ absurd hmem List.not_mem_nil
  obtain ⟨-, hunique⟩ := Read.keeps_document _ _ o r hstart hrun
  cases o with
  | none => cases hd
  | some d => exact hunique kvs hd

end JavaOutline.Yaml
