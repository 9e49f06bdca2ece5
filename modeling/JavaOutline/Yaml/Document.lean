import JavaOutline.Yaml.Scalar
import JavaOutline.Yaml.Scan

/-! # What a document denotes

The one document of a stream as a value. Aliases stand for the node under their anchor, mappings
are merged where they ask for it, and of several values under a key the last counts, at the place
of the first. -/

namespace JavaOutline.Yaml

/-- What a node is good for. -/
structure Node where
  /-- The value it denotes; a merge key denotes none. -/
  datum : Option Datum
  /-- A plain `<<`. -/
  isMerge : Bool := false
  /-- The text it stands for as a key, if that differs from its value. -/
  keyText : Option String := none
  /-- The entries of a mapping. -/
  entries? : Option (List (Datum × Datum)) := none
  /-- The entries of all items of a sequence of mappings. -/
  listed? : Option (List (List (Datum × Datum))) := none
deriving Repr, Inhabited

/-- What is left to read, and the names in force. -/
structure Reading where
  tokens : List Token
  /-- Nodes by their anchors; a node that is still being read has its anchor already. -/
  anchors : List (String × Option Node) := []
  /-- Tag handles with what they stand for. -/
  handles : List (String × String) := [("!", "!"), ("!!", "tag:yaml.org,2002:")]
deriving Repr, Inhabited

abbrev Read := StateT Reading Option

namespace Read

/-- Whether the next token satisfies `p`; the end of the tokens does not. -/
def nextIs (p : Token → Bool) : Read Bool := do return ((← get).tokens.head?).any p

/-- Take the next token if it satisfies `p`. -/
def take? (p : Token → Bool) : Read (Option Token) := do
  let r ← get
  match r.tokens with
  | t :: ts =>
    if p t then
      set { r with tokens := ts }
      return some t
    else return none
  | [] => return none

/-- Take a token that has to be there. -/
def expect (t : Token) : Read Unit := do
  match ← take? (· == t) with
  | some _ => return ()
  | none => failure

/-! ## Nodes -/

/-- A scalar that is not there. -/
def missing : Node := { datum := some .null }

/-- A node that just denotes a value. -/
def ofDatum (d : Option Datum) : Node := { datum := d }

/-- A scalar with its tag; one without a tag is what it is written like, if it is plain. -/
def scalar (tag : Option String) (text : List Char) (plain : Bool) : Node :=
  match tag with
  | some t => if t == "!" then ofWritten true else ofDatum (Scalar.ofTagged? t text)
  | none => ofWritten plain
where
  /-- A scalar without a tag. -/
  ofWritten (plain : Bool) : Node :=
    if plain then
      match Scalar.ofPlain text with
      | .datum d => ofDatum (some d)
      | .merge => { datum := none, isMerge := true }
      | .equals => { datum := none, keyText := some "=" }
    else ofDatum (some (.text (String.ofList text)))

def sequence (tag : Option String) (items : List Node) : Node :=
  if tag.any (fun t => t != "!" && t != "tag:yaml.org,2002:seq") then ofDatum none
  else
    { datum := (items.mapM Node.datum).map .list
      listed? := items.mapM Node.entries? }

/-- Keys that are the same in a mapping: numbers and truth values by their value. -/
def sameKey : Datum → Datum → Bool
  | .null, .null => true
  | .text a, .text b => a == b
  | .other a, .other b => a == b
  | a, b => match value? a, value? b with
    | some (m, e), some (n, f) =>
      let low := min e f
      m * Int.pow 10 (e - low).toNat == n * Int.pow 10 (f - low).toNat
    | _, _ => false
where
  /-- Mantissa and exponent of a number or truth value. -/
  value? : Datum → Option (Int × Int)
    | .bool b => some (if b then 1 else 0, 0)
    | .int n => some (n, 0)
    | .decimal m e => some (m, e)
    | _ => none

/-- Put a value under a key, at the key's place if it has one. -/
def put (k v : Datum) : List (Datum × Datum) → List (Datum × Datum)
  | [] => [(k, v)]
  | (k', v') :: r => if sameKey k' k then (k', v) :: r else (k', v') :: put k v r

/-- Collections cannot be keys. -/
def isKey : Datum → Bool
  | .list _ => false
  | .map _ => false
  | _ => true

/-- The entries that merging a node adds: those of a mapping, or those of all mappings in a
sequence, of which the first counts most and comes last. -/
def merged? (n : Node) : Option (List (Datum × Datum)) :=
  n.entries?.or (n.listed?.map fun es => es.reverse.flatten)

/-- The entries of a mapping, merged ones first. -/
def entries (pairs : List (Node × Node)) : Option (List (Datum × Datum)) := do
  let merged ← (pairs.filter (·.1.isMerge)).mapM fun p => merged? p.2
  let own ← (pairs.filter fun p => !p.1.isMerge).mapM fun (k, v) => do
    let key ← (k.keyText.map Datum.text).or k.datum
    let value ← v.datum
    if isKey key then some (key, value) else none
  some (merged.flatten ++ own)

def mapping (tag : Option String) (pairs : List (Node × Node)) : Node :=
  if tag.any (fun t => t != "!" && t != "tag:yaml.org,2002:map") then ofDatum none
  else
    { datum := (entries pairs).map fun es => .map (es.foldl (fun m e => put e.1 e.2 m) [])
      entries? := entries pairs }

/-! ## Reading nodes -/

/-- The full tag of a tag token. -/
def fullTag (handle : Option (List Char)) (rest : List Char) : Read String := do
  match handle with
  | none => return String.ofList rest
  | some h => match (← get).handles.lookup (String.ofList h) with
    | some start => return start ++ String.ofList rest
    | none => failure

/-- Anchor and tag of a node, in either order. -/
def properties : Nat → Option String → Option String → Read (Option String × Option String)
  | 0, anchor, tag => return (anchor, tag)
  | n + 1, anchor, tag => do
    match (← get).tokens.head? with
    | some (.anchor a) =>
      if anchor.isSome then return (anchor, tag)
      let _ ← take? fun _ => true
      properties n (some (String.ofList a)) tag
    | some (.tag h r) =>
      if tag.isSome then return (anchor, tag)
      let t ← fullTag h r
      let _ ← take? fun _ => true
      properties n anchor (some t)
    | _ => return (anchor, tag)

/-- Take an anchor, which has to be new. -/
def takeAnchor (anchor : Option String) : Read Unit := do
  match anchor with
  | none => return ()
  | some a =>
    if ((← get).anchors.lookup a).isSome then failure
    modify fun r => { r with anchors := (a, none) :: r.anchors }

/-- Keep a node under its anchor. -/
def keep (anchor : Option String) (n : Node) : Read Node := do
  match anchor with
  | none => return n
  | some a =>
    modify fun r => { r with anchors := (a, some n) :: r.anchors }
    return n

/-- The node under an anchor. A node that contains itself is refused. -/
def aliased (name : String) : Read Node := do
  match (← get).anchors.lookup name with
  | some (some v) => return v
  | _ => failure

def isBlockEntry (t : Token) : Bool := t == .blockEntry

/-- Tokens in front of which a block node is missing. -/
def endsEntry (t : Token) : Bool := t == .blockEntry || t == .blockEnd

def endsKey (t : Token) : Bool := t == .key || t == .value || t == .blockEnd

def endsFlowItem (t : Token) : Bool := t == .flowEntry || t == .flowSequenceEnd

def endsFlowPair (t : Token) : Bool := t == .flowEntry || t == .flowMappingEnd

mutual

/-- A node. In a block, block collections are allowed, and with `indentless` a sequence that has
no start of its own. The first argument bounds the depth and length of what is read. -/
def node : Nat → Bool → Bool → Read Node
  | 0, _, _ => failure
  | n + 1, block, indentless => do
    match ← take? (fun | .alias _ => true | _ => false) with
    | some (.alias a) => aliased (String.ofList a)
    | _ =>
      let (anchor, tag) ← properties 2 none none
      takeAnchor anchor
      let next := (← get).tokens.head?
      let v ← match next with
        | some (.scalar text plain) => do
          let _ ← take? fun _ => true
          pure (scalar tag text plain)
        | some .flowSequenceStart => do
          let _ ← take? fun _ => true
          sequence tag <$> flowItems n true
        | some .flowMappingStart => do
          let _ ← take? fun _ => true
          mapping tag <$> flowPairs n true
        | some .blockSequenceStart =>
          if block then do
            let _ ← take? fun _ => true
            let items ← blockItems n endsEntry
            expect .blockEnd
            pure (sequence tag items)
          else orEmpty anchor tag
        | some .blockMappingStart =>
          if block then do
            let _ ← take? fun _ => true
            let pairs ← blockPairs n
            expect .blockEnd
            pure (mapping tag pairs)
          else orEmpty anchor tag
        | some .blockEntry =>
          if indentless then
            sequence tag <$> blockItems n fun t => t == .blockEntry || endsKey t
          else orEmpty anchor tag
        | _ => orEmpty anchor tag
      keep anchor v

/-- A node that consists of an anchor or a tag alone. -/
def orEmpty (anchor tag : Option String) : Read Node :=
  if anchor.isSome || tag.isSome then pure (scalar tag [] true) else failure

/-- The items of a block sequence; `ends` tells where an item is missing. -/
def blockItems : Nat → (Token → Bool) → Read (List Node)
  | 0, _ => failure
  | n + 1, ends => do
    match ← take? isBlockEntry with
    | none => return []
    | some _ =>
      let v ← if ← nextIs ends then pure missing else node n true false
      let vs ← blockItems n ends
      return v :: vs

/-- The pairs of a block mapping. -/
def blockPairs : Nat → Read (List (Node × Node))
  | 0 => failure
  | n + 1 => do
    match ← take? (· == .key) with
    | none => return []
    | some _ =>
      let k ← if ← nextIs endsKey then pure missing else node n true true
      let v ← match ← take? (· == .value) with
        | none => pure missing
        | some _ => if ← nextIs endsKey then pure missing else node n true true
      let ps ← blockPairs n
      return (k, v) :: ps

/-- The items of a flow sequence and its end. A pair among them is a mapping of its own. -/
def flowItems : Nat → Bool → Read (List Node)
  | 0, _ => failure
  | n + 1, first => do
    match ← take? (· == .flowSequenceEnd) with
    | some _ => return []
    | none =>
      if !first then expect .flowEntry
      match ← take? (· == .key) with
      | some _ =>
        let k ← if ← nextIs fun t => t == .value || endsFlowItem t then pure missing
          else node n false false
        let v ← match ← take? (· == .value) with
          | none => pure missing
          | some _ => if ← nextIs endsFlowItem then pure missing else node n false false
        let vs ← flowItems n false
        return mapping none [(k, v)] :: vs
      | none =>
        if ← nextIs (· == .flowSequenceEnd) then flowItems n false
        else
          let v ← node n false false
          let vs ← flowItems n false
          return v :: vs

/-- The pairs of a flow mapping and its end. -/
def flowPairs : Nat → Bool → Read (List (Node × Node))
  | 0, _ => failure
  | n + 1, first => do
    match ← take? (· == .flowMappingEnd) with
    | some _ => return []
    | none =>
      if !first then expect .flowEntry
      match ← take? (· == .key) with
      | some _ =>
        let k ← if ← nextIs fun t => t == .value || endsFlowPair t then pure missing
          else node n false false
        let v ← match ← take? (· == .value) with
          | none => pure missing
          | some _ => if ← nextIs endsFlowPair then pure missing else node n false false
        let ps ← flowPairs n false
        return (k, v) :: ps
      | none =>
        if ← nextIs (· == .flowMappingEnd) then flowPairs n false
        else
          let k ← node n false false
          let ps ← flowPairs n false
          return (k, missing) :: ps

end

/-! ## Documents -/

def isDirective : Token → Bool
  | .version _ => true
  | .tagHandle _ _ => true
  | .directive => true
  | _ => false

/-- Directives in front of a document: at most one version, which has to be 1, and each tag handle
once. -/
def directives : Nat → Bool → List String → Read Unit
  | 0, _, _ => return ()
  | n + 1, versioned, seen => do
    match ← take? isDirective with
    | some (.version major) =>
      if versioned || major != 1 then failure
      directives n true seen
    | some (.tagHandle h u) =>
      let h := String.ofList h
      if seen.contains h then failure
      modify fun r => { r with handles := (h, String.ofList u) :: r.handles }
      directives n versioned (h :: seen)
    | some _ => directives n versioned seen
    | none => return ()

/-- Tokens in front of which the content of a document is missing. -/
def endsDocument (t : Token) : Bool := isDirective t || t == .documentStart || t == .documentEnd

/-- Marks of the end of a document. -/
def documentEnds : Nat → Read Unit
  | 0 => return ()
  | n + 1 => do
    match ← take? (· == .documentEnd) with
    | some _ => documentEnds n
    | none => return ()

/-- The value of the only document; none if the stream has no document at all. -/
def document (bound : Nat) : Read (Option Datum) := do
  if (← get).tokens.isEmpty then return none
  let explicit ← nextIs fun t => isDirective t || t == .documentStart
  if explicit then
    directives bound false []
    expect .documentStart
  let missingContent := explicit && ((← get).tokens.isEmpty || (← nextIs endsDocument))
  let v ← if missingContent then pure missing else node bound true false
  documentEnds bound
  if (← get).tokens.isEmpty then
    match v.datum with
    | some d => return some d
    | none => failure
  else failure

end Read

/-- The value that a YAML text denotes; nothing is null. Fails on text that is no YAML. -/
def load? (s : String) : Option Datum := do
  let tokens ← tokens? s.toList
  let (d, _) ← (Read.document (3 * tokens.length + 5)).run { tokens }
  some (d.getD .null)

end JavaOutline.Yaml
