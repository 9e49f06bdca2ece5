import JavaOutline.Yaml.Token

/-! # From text to tokens

A scan goes over the text once. It keeps the indentation of the block collections that are open,
the number of flow collections that are open, and for each of these the place where a key could
have begun: when a colon shows that one did, the tokens for it are put in at that place. A scan
fails on text that is no YAML. -/

namespace JavaOutline.Yaml

/-- A place where a key may have begun. -/
structure PossibleKey where
  /-- How many tokens stand before the key. -/
  position : Nat
  /-- Nothing but a key can stand there. -/
  required : Bool
  index : Nat
  line : Nat
  column : Nat
deriving Repr, Inhabited

/-- How far a scan has come. -/
structure Scan where
  rest : List Char
  index : Nat := 0
  line : Nat := 0
  column : Nat := 0
  /-- The number of open flow collections. -/
  flow : Nat := 0
  /-- The column of the innermost open block collection, or -1. -/
  indent : Int := -1
  /-- The columns of the collections around it. -/
  indents : List Int := []
  /-- Possible keys, one for each number of open flow collections. -/
  keys : List (Nat × PossibleKey) := []
  /-- A key may begin here. -/
  allowKey : Bool := true
  tokens : List Token := []
deriving Repr, Inhabited

namespace Scan

/-! ## Moving on -/

/-- Go over one character. -/
def next (s : Scan) : Scan :=
  match s.rest with
  | [] => s
  | c :: r =>
    let s := { s with rest := r, index := s.index + 1 }
    if isBreak c && !(c == '\r' && r.head? == some '\n') then
      { s with line := s.line + 1, column := 0 }
    else if c == '\ufeff' then s
    else { s with column := s.column + 1 }

/-- Go over `n` characters. -/
def skip : Nat → Scan → Scan
  | 0, s => s
  | n + 1, s => skip n s.next

/-- Go over a line break, if there is one, and say what it counts as. -/
def lineBreak (s : Scan) : List Char × Scan :=
  match s.rest with
  | '\r' :: '\n' :: _ => (['\n'], s.skip 2)
  | c :: _ =>
    if c == '\u2028' || c == '\u2029' then ([c], s.skip 1)
    else if isBreak c then (['\n'], s.skip 1)
    else ([], s)
  | [] => ([], s)

/-- Go over characters that satisfy `p`. -/
def skipWhile (p : Char → Bool) (s : Scan) : Scan := s.skip (s.rest.takeWhile p).length

/-- Go over characters that satisfy `p`, and return them. -/
def take (p : Char → Bool) (s : Scan) : List Char × Scan := (s.rest.takeWhile p, s.skipWhile p)

/-- A comment and the characters up to the end of its line. -/
def skipComment (s : Scan) : Scan :=
  match s.rest with
  | '#' :: _ => s.skipWhile (!isBreak ·)
  | _ => s

/-- Whether a document marker stands here. -/
def atMarker (s : Scan) : Bool :=
  match s.rest with
  | '-' :: '-' :: '-' :: r => endsWord r
  | '.' :: '.' :: '.' :: r => endsWord r
  | _ => false

/-! ## Tokens, keys and indentation -/

def emit (t : Token) (s : Scan) : Scan := { s with tokens := s.tokens ++ [t] }

/-- Put a token in at a place. -/
def insert (position : Nat) (t : Token) (s : Scan) : Scan :=
  { s with tokens := s.tokens.take position ++ t :: s.tokens.drop position }

/-- Close the block collections that are indented deeper than `column`. -/
def unwind (column : Int) (s : Scan) : Scan :=
  if s.flow ≠ 0 then s else go s.indents s
where
  /-- Close one collection after another. -/
  go : List Int → Scan → Scan
    | [], s => if column < s.indent then ({ s with indent := -1 }).emit .blockEnd else s
    | i :: is, s =>
      if column < s.indent then go is (({ s with indent := i, indents := is }).emit .blockEnd)
      else s

/-- Open a block collection at a column, unless one is open there or deeper. -/
def openAt (column : Int) (s : Scan) : Bool × Scan :=
  if s.indent < column then (true, { s with indent := column, indents := s.indent :: s.indents })
  else (false, s)

/-- The possible key of the innermost flow collection. -/
def key? (s : Scan) : Option PossibleKey := s.keys.lookup s.flow

/-- Forget the possible key of the innermost flow collection. -/
def dropKey (s : Scan) : Scan := { s with keys := s.keys.filter (·.1 != s.flow) }

/-- Forget the possible key here; a required one has to be a key. -/
def removeKey (s : Scan) : Option Scan :=
  match s.key? with
  | some k => if k.required then none else some s.dropKey
  | none => some s

/-- A key ends on the line it begins on, within 1024 characters. -/
def isStale (s : Scan) (k : PossibleKey) : Bool := k.line != s.line || 1024 < s.index - k.index

/-- Forget the keys that have come too far. -/
def removeStale (s : Scan) : Option Scan :=
  if s.keys.any fun p => isStale s p.2 && p.2.required then none
  else some { s with keys := s.keys.filter fun p => !isStale s p.2 }

/-- Note that a key may begin here. -/
def saveKey (s : Scan) : Option Scan :=
  if s.allowKey then do
    let required := s.flow == 0 && s.indent == (s.column : Int)
    let k : PossibleKey :=
      { position := s.tokens.length, required, index := s.index, line := s.line,
        column := s.column }
    let s ← s.removeKey
    some { s with keys := (s.flow, k) :: s.keys }
  else some s

/-! ## Scalars -/

/-- Spaces and line breaks inside a plain scalar: what they count as, or nothing before a document
marker. -/
def plainSpaces (s : Scan) : List Char × Scan :=
  let (blanks, s) := s.take (· == ' ')
  if s.rest.isEmpty || !endsLine s.rest then (blanks, s)
  else
    let (first, s) := s.lineBreak
    let s := { s with allowKey := true }
    if s.atMarker then ([], s)
    else match go s.rest.length [] s with
      | (none, s) => ([], s)
      | (some breaks, s) =>
        if first ≠ ['\n'] then (first ++ breaks, s)
        else if breaks.isEmpty then ([' '], s)
        else (breaks, s)
where
  /-- Go over empty lines; none if a document marker follows. -/
  go : Nat → List Char → Scan → Option (List Char) × Scan
    | 0, breaks, s => (some breaks, s)
    | n + 1, breaks, s =>
      match s.rest with
      | ' ' :: _ => go n breaks (s.skip 1)
      | c :: _ =>
        if isBreak c then
          let (b, s) := s.lineBreak
          if s.atMarker then (none, s) else go n (breaks ++ b) s
        else (some breaks, s)
      | [] => (some breaks, s)

/-- How many characters a run of a plain scalar has. -/
def plainLength (flow : Bool) : List Char → Nat
  | [] => 0
  | c :: r =>
    if c == ' ' || c == '\t' || isBreak c then 0
    else if c == ':' && (endsWord r ||
        (flow &&
          nextIs (fun d => d == ',' || d == '[' || d == ']' || d == '\x7b' || d == '\x7d') r))
    then 0
    else if flow && (c == ',' || c == '?' || c == '[' || c == ']' || c == '\x7b' || c == '\x7d')
    then 0
    else plainLength flow r + 1

/-- A plain scalar; it goes on in the next line if that is indented. The first argument bounds the
number of runs. -/
def plain : Nat → List Char → List Char → Scan → List Char × Scan
  | 0, text, _, s => (text, s)
  | n + 1, text, spaces, s =>
    let length := if s.rest.head? == some '#' then 0 else plainLength (s.flow != 0) s.rest
    if length == 0 then (text, s)
    else
      let text := text ++ spaces ++ s.rest.take length
      let s := { s.skip length with allowKey := false }
      let (spaces, s) := s.plainSpaces
      if spaces.isEmpty || s.rest.head? == some '#' ||
          (s.flow == 0 && (s.column : Int) < s.indent + 1)
      then (text, s)
      else plain n text spaces s

/-- Line breaks and blanks inside a quoted scalar; fails at a document marker. -/
def quotedBreaks : Nat → List Char → Scan → Option (List Char × Scan)
  | 0, breaks, s => some (breaks, s)
  | n + 1, breaks, s =>
    if s.atMarker then none
    else
      let s := s.skipWhile fun c => c == ' ' || c == '\t'
      match s.rest with
      | c :: _ =>
        if isBreak c then
          let (b, s) := s.lineBreak
          quotedBreaks n (breaks ++ b) s
        else some (breaks, s)
      | [] => some (breaks, s)

/-- What an escaped character stands for. -/
def escapes : List (Char × Char) :=
  [('0', '\x00'), ('a', '\x07'), ('b', '\x08'), ('t', '\t'), ('\t', '\t'), ('n', '\n'),
   ('v', '\x0b'), ('f', '\x0c'), ('r', '\r'), ('e', '\x1b'), (' ', ' '), ('"', '"'),
   ('\\', '\\'), ('/', '/'), ('N', '\u0085'), ('_', '\u00a0'), ('L', '\u2028'), ('P', '\u2029')]

/-- How many hexadecimal digits follow an escape. -/
def escapeWidth? : Char → Option Nat
  | 'x' => some 2
  | 'u' => some 4
  | 'U' => some 8
  | _ => none

/-- The value of a hexadecimal digit. -/
def hexValue? (c : Char) : Option Nat :=
  if '0' ≤ c ∧ c ≤ '9' then some (c.toNat - '0'.toNat)
  else if 'a' ≤ c ∧ c ≤ 'f' then some (c.toNat - 'a'.toNat + 10)
  else if 'A' ≤ c ∧ c ≤ 'F' then some (c.toNat - 'A'.toNat + 10)
  else none

/-- The number that hexadecimal digits denote. -/
def hexNumber? (cs : List Char) : Option Nat :=
  cs.foldlM (fun n c => (hexValue? c).map (n * 16 + ·)) 0

/-- The inside of a quoted scalar, up to and with its closing quote. The first argument bounds the
number of pieces. -/
def quoted (double : Bool) : Nat → List Char → Scan → Option (List Char × Scan)
  | 0, _, _ => none
  | n + 1, text, s =>
    match s.rest with
    | [] => none
    | c :: r =>
      if !double && c == '\'' && r.head? == some '\'' then
        quoted double n (text ++ ['\'']) (s.skip 2)
      else if c == (if double then '"' else '\'') then some (text, s.skip 1)
      else if double && c == '\\' then
        match r with
        | [] => none
        | e :: r =>
          match escapes.lookup e, escapeWidth? e with
          | some d, _ => quoted double n (text ++ [d]) (s.skip 2)
          | none, some w =>
            if r.length < w then none
            else match hexNumber? (r.take w) with
              | some k => quoted double n (text ++ [Char.ofNat k]) (s.skip (w + 2))
              | none => none
          | none, none =>
            if isBreak e then
              match quotedBreaks (r.length + 1) [] (s.skip 1).lineBreak.2 with
              | some (breaks, s) => quoted double n (text ++ breaks) s
              | none => none
            else none
      else if c == ' ' || c == '\t' || isBreak c then
        let (blanks, s) := s.take fun c => c == ' ' || c == '\t'
        if s.rest.isEmpty then none
        else if endsLine s.rest then
          let (first, s) := s.lineBreak
          match quotedBreaks (s.rest.length + 1) [] s with
          | some (breaks, s) =>
            let folded := if first ≠ ['\n'] then first ++ breaks
              else if breaks.isEmpty then [' '] else breaks
            quoted double n (text ++ folded) s
          | none => none
        else quoted double n (text ++ blanks) s
      else quoted double n (text ++ [c]) (s.skip 1)

/-- The indicators behind the mark of a block scalar: how its last line breaks are treated, and
how deep it is indented. -/
def blockIndicators (s : Scan) : Option ((Option Bool × Option Nat) × Scan) :=
  let chomp? := fun (c : Option Char) =>
    if c == some '+' then some true else if c == some '-' then some false else none
  let digit? := fun (c : Option Char) => (c.filter Char.isDigit).map fun c => c.toNat - '0'.toNat
  let (chomp, depth, s) : Option Bool × Option Nat × Scan :=
    match chomp? s.rest.head? with
    | some b =>
      let s := s.skip 1
      match digit? s.rest.head? with
      | some d => (some b, some d, s.skip 1)
      | none => (some b, none, s)
    | none => match digit? s.rest.head? with
      | some d =>
        let s := s.skip 1
        match chomp? s.rest.head? with
        | some b => (some b, some d, s.skip 1)
        | none => (none, some d, s)
      | none => (none, none, s)
  if depth == some 0 || !endsTag s.rest then none else some ((chomp, depth), s)

/-- Leading empty lines of a block scalar and the deepest indentation among them. -/
def blockIndentation : Nat → List Char → Nat → Scan → List Char × Nat × Scan
  | 0, breaks, deepest, s => (breaks, deepest, s)
  | n + 1, breaks, deepest, s =>
    match s.rest with
    | ' ' :: _ =>
      let s := s.skip 1
      blockIndentation n breaks (max deepest s.column) s
    | c :: _ =>
      if isBreak c then
        let (b, s) := s.lineBreak
        blockIndentation n (breaks ++ b) deepest s
      else (breaks, deepest, s)
    | [] => (breaks, deepest, s)

/-- Spaces up to a column. -/
def skipIndent (column : Nat) (s : Scan) : Scan :=
  s.skip (min (column - s.column) (s.rest.takeWhile (· == ' ')).length)

/-- Empty lines inside a block scalar. -/
def blockBreaks (column : Nat) : Nat → List Char → Scan → List Char × Scan
  | 0, breaks, s => (breaks, s)
  | n + 1, breaks, s =>
    let s := s.skipIndent column
    match s.rest with
    | c :: _ =>
      if isBreak c then
        let (b, s) := s.lineBreak
        blockBreaks column n (breaks ++ b) s
      else (breaks, s)
    | [] => (breaks, s)

/-- The lines of a block scalar: its text, the last line break and the empty lines behind. -/
def blockLines (folded : Bool) (column : Nat) :
    Nat → List Char → List Char → Scan → List Char × List Char × List Char × Scan
  | 0, text, breaks, s => (text, [], breaks, s)
  | n + 1, text, breaks, s =>
    let text := text ++ breaks
    let isSpaced := fun (s : Scan) => (s.rest.head?).any fun c => c == ' ' || c == '\t'
    let spaced := isSpaced s
    let (line, s) := s.take (!isBreak ·)
    let text := text ++ line
    let (last, s) := s.lineBreak
    let (breaks, s) := blockBreaks column (s.rest.length + 1) [] s
    if s.column == column && !s.rest.isEmpty then
      if folded && last == ['\n'] && !spaced && !isSpaced s then
        blockLines folded column n (if breaks.isEmpty then text ++ [' '] else text) breaks s
      else blockLines folded column n (text ++ last) breaks s
    else (text, last, breaks, s)

/-- A block scalar behind its mark. -/
def block (folded : Bool) (s : Scan) : Option (List Char × Scan) := do
  let ((chomp, depth), s) ← s.blockIndicators
  let s := (s.skipWhile (· == ' ')).skipComment
  if !endsLine s.rest then none
  else
    let s := s.lineBreak.2
    let least := (max (s.indent + 1) 1).toNat
    let (breaks, column, s) := match depth with
      | some d =>
        let column := least + d - 1
        let (breaks, s) := blockBreaks column (s.rest.length + 1) [] s
        (breaks, column, s)
      | none =>
        let (breaks, deepest, s) := blockIndentation s.rest.length [] 0 s
        (breaks, max least deepest, s)
    let (text, last, breaks, s) :=
      if s.column == column && !s.rest.isEmpty then
        blockLines folded column (s.rest.length + 1) [] breaks s
      else ([], [], breaks, s)
    let text := if chomp == some false then text else text ++ last
    some (if chomp == some true then text ++ breaks else text, s)

/-! ## Names, tags and directives -/

def isNameChar (c : Char) : Bool := c.isAlphanum || c == '-' || c == '_'

/-- Characters of a tag's address. -/
def isUriChar (c : Char) : Bool := c.isAlphanum || "-;/?:@&=+$,_.!~*'()[]%".toList.contains c

/-- The name of an anchor or alias behind its mark. -/
def anchorName (s : Scan) : Option (List Char × Scan) :=
  let (name, s) := s.take isNameChar
  let ends := endsWord s.rest || (s.rest.head?).any ("?:,]\x7d%@\x60".toList.contains ·)
  if name.isEmpty || !ends then none else some (name, s)

/-- The address of a tag; escaped bytes are not resolved. -/
def tagUri (s : Scan) : Option (List Char × Scan) :=
  let (uri, s) := s.take isUriChar
  if uri.isEmpty then none else some (uri, s)

/-- The handle of a tag, from its first mark to its second. -/
def tagHandle (s : Scan) : Option (List Char × Scan) :=
  let (name, s) := (s.skip 1).take isNameChar
  if s.rest.head? == some '!' then some ('!' :: name ++ ['!'], s.skip 1) else none

/-- A tag. -/
def tagToken (s : Scan) : Option (Token × Scan) := do
  let (t, s) ← match s.rest.drop 1 with
    | '<' :: _ => do
      let (uri, s) ← (s.skip 2).tagUri
      if s.rest.head? == some '>' then some (Token.tag none uri, s.skip 1) else none
    | r =>
      if endsWord r then some (Token.tag none ['!'], s.skip 1)
      else if (r.takeWhile fun c => c != ' ' && !isBreak c).contains '!' then do
        let (handle, s) ← s.tagHandle
        let (uri, s) ← s.tagUri
        some (Token.tag (some handle) uri, s)
      else do
        let (uri, s) ← (s.skip 1).tagUri
        some (Token.tag (some ['!']) uri, s)
  if endsTag s.rest then some (t, s) else none

/-- The number that decimal digits denote. -/
def decimal (cs : List Char) : Nat := cs.foldl (fun n c => n * 10 + (c.toNat - '0'.toNat)) 0

/-- A directive, with the line it stands on. -/
def directiveToken (s : Scan) : Option (Token × Scan) := do
  let (name, s) := (s.skip 1).take isNameChar
  if name.isEmpty || !endsTag s.rest then none
  else
    let (t, s) ←
      if name == "YAML".toList then
        let (major, s) := (s.skipWhile (· == ' ')).take Char.isDigit
        let (minor, s') := (s.skip 1).take Char.isDigit
        if major.isEmpty || s.rest.head? != some '.' || minor.isEmpty || !endsTag s'.rest then none
        else some (Token.version (decimal major), s')
      else if name == "TAG".toList then do
        let s := s.skipWhile (· == ' ')
        let (handle, s) ← if s.rest.head? != some '!' then none
          else if (s.rest.drop 1).head? == some ' ' then some (['!'], s.skip 1) else s.tagHandle
        if s.rest.head? != some ' ' then none
        else
          let (uri, s) ← (s.skipWhile (· == ' ')).tagUri
          if endsTag s.rest then some (Token.tagHandle handle uri, s) else none
      else some (Token.directive, s.skipWhile (!isBreak ·))
    let s := (s.skipWhile (· == ' ')).skipComment
    if endsLine s.rest then some (t, s.lineBreak.2) else none

/-! ## The scan -/

/-- Go over spaces, comments and line breaks. The first argument bounds the number of lines. -/
def toNextToken : Nat → Scan → Scan
  | 0, s => s
  | n + 1, s =>
    let s := (s.skipWhile (· == ' ')).skipComment
    match s.rest with
    | c :: _ =>
      if isBreak c then
        let s := s.lineBreak.2
        toNextToken n (if s.flow == 0 then { s with allowKey := true } else s)
      else s
    | [] => s

/-- End what is open before a directive or document marker. -/
def endBlocks (s : Scan) : Option Scan := do
  let s ← (s.unwind (-1)).removeKey
  some { s with allowKey := false }

/-- A document marker. -/
def marker (t : Token) (s : Scan) : Option Scan := do
  let s ← s.endBlocks
  some ((s.skip 3).emit t)

def flowStart (t : Token) (s : Scan) : Option Scan := do
  let s ← s.saveKey
  some (({ s with flow := s.flow + 1, allowKey := true }.skip 1).emit t)

def flowEnd (t : Token) (s : Scan) : Option Scan := do
  let s ← s.removeKey
  some (({ s with flow := s.flow - 1, allowKey := false }.skip 1).emit t)

def flowEntry (s : Scan) : Option Scan := do
  let s ← s.removeKey
  some (({ s with allowKey := true }.skip 1).emit .flowEntry)

/-- Open a block collection here, where a key is allowed. -/
def openHere (start : Token) (s : Scan) : Option Scan :=
  if s.flow ≠ 0 then some s
  else if !s.allowKey then none
  else match s.openAt s.column with
    | (true, s) => some (s.emit start)
    | (false, s) => some s

def blockEntry (s : Scan) : Option Scan := do
  let s ← s.openHere .blockSequenceStart
  let s ← { s with allowKey := true }.removeKey
  some ((s.skip 1).emit .blockEntry)

def explicitKey (s : Scan) : Option Scan := do
  let s ← s.openHere .blockMappingStart
  let s ← { s with allowKey := s.flow == 0 }.removeKey
  some ((s.skip 1).emit .key)

/-- A colon: it shows where a key began, or stands for a value without a key. -/
def valueMark (s : Scan) : Option Scan :=
  match s.key? with
  | some k =>
    let s := s.dropKey.insert k.position .key
    let s := if s.flow ≠ 0 then s
      else match s.openAt k.column with
        | (true, s) => s.insert k.position .blockMappingStart
        | (false, s) => s
    some (({ s with allowKey := false }.skip 1).emit .value)
  | none => do
    let s ← s.openHere .blockMappingStart
    let s ← { s with allowKey := s.flow == 0 }.removeKey
    some ((s.skip 1).emit .value)

/-- Something that may be a key. -/
def content (read : Scan → Option (Token × Scan)) (s : Scan) : Option Scan := do
  let s ← s.saveKey
  let (t, s) ← read { s with allowKey := false }
  some (s.emit t)

def blockScalar (folded : Bool) (s : Scan) : Option Scan := do
  let s ← { s with allowKey := true }.removeKey
  let (text, s) ← (s.skip 1).block folded
  some (s.emit (.scalar text false))

/-- Whether a plain scalar can start with these characters. -/
def startsPlain (flow : Bool) : List Char → Bool
  | [] => false
  | c :: r =>
    if c == ' ' || c == '\t' || isBreak c then false
    else if "-?:".toList.contains c then !endsWord r && (c == '-' || !flow)
    else !(",[]#&*!|>'\"%@\x60\x7b\x7d".toList.contains c)

/-- Read one token that starts here. -/
def token (s : Scan) : Option Scan :=
  let flow := s.flow != 0
  let r := s.rest.drop 1
  match s.rest.head? with
  | none => none
  | some c =>
    if c == '%' && s.column == 0 then do
      let s ← s.endBlocks
      let (t, s) ← s.directiveToken
      some (s.emit t)
    else if c == '-' && s.column == 0 && s.atMarker then s.marker .documentStart
    else if c == '.' && s.column == 0 && s.atMarker then s.marker .documentEnd
    else if c == '[' then s.flowStart .flowSequenceStart
    else if c == '\x7b' then s.flowStart .flowMappingStart
    else if c == ']' then s.flowEnd .flowSequenceEnd
    else if c == '\x7d' then s.flowEnd .flowMappingEnd
    else if c == ',' then s.flowEntry
    else if c == '-' && endsWord r then s.blockEntry
    else if c == '?' && (flow || endsWord r) then s.explicitKey
    else if c == ':' && (flow || endsWord r) then s.valueMark
    else if c == '*' then s.content fun s => (s.skip 1).anchorName.map fun p => (.alias p.1, p.2)
    else if c == '&' then s.content fun s => (s.skip 1).anchorName.map fun p => (.anchor p.1, p.2)
    else if c == '!' then s.content tagToken
    else if c == '|' && !flow then s.blockScalar false
    else if c == '>' && !flow then s.blockScalar true
    else if c == '\'' then
      s.content fun s => (quoted false s.rest.length [] (s.skip 1)).map fun p =>
        (.scalar p.1 false, p.2)
    else if c == '"' then
      s.content fun s => (quoted true s.rest.length [] (s.skip 1)).map fun p =>
        (.scalar p.1 false, p.2)
    else if startsPlain flow s.rest then
      s.content fun s =>
        let (text, s) := plain (s.rest.length + 1) [] [] s
        some (.scalar text true, s)
    else none

/-- Read tokens to the end of the text. The first argument bounds their number. -/
def tokensWithin : Nat → Scan → Option (List Token)
  | 0, _ => none
  | n + 1, s => do
    let s ← (toNextToken (s.rest.length + 1) s).removeStale
    let s := s.unwind s.column
    if s.rest.isEmpty then
      let s ← (s.unwind (-1)).removeKey
      some s.tokens
    else
      let s ← s.token
      tokensWithin n s

end Scan

/-- The tokens of a stream, unless it is no YAML. -/
def tokens? (s : List Char) : Option (List Token) :=
  if s.all isAllowed then
    let rest := if s.head? == some '\ufeff' then s.drop 1 else s
    Scan.tokensWithin (s.length + 2) { rest }
  else none

end JavaOutline.Yaml
