/-! # Tokens of YAML

The text of a YAML stream as a sequence of tokens. Indentation is made explicit: block collections
have a start and an end, and every key is marked. -/

namespace JavaOutline.Yaml

/-- A token. -/
inductive Token where
  | version (major : Nat)
  | tagHandle (handle uri : List Char)
  /-- A directive of no known name. -/
  | directive
  | documentStart
  | documentEnd
  | blockSequenceStart
  | blockMappingStart
  | blockEnd
  | flowSequenceStart
  | flowSequenceEnd
  | flowMappingStart
  | flowMappingEnd
  | blockEntry
  | flowEntry
  | key
  | value
  | alias (name : List Char)
  | anchor (name : List Char)
  /-- A tag with its handle, if it has one. -/
  | tag (handle : Option (List Char)) (rest : List Char)
  | scalar (text : List Char) (plain : Bool)
deriving DecidableEq, Repr, Inhabited

/-- Line breaks. -/
def isBreak (c : Char) : Bool :=
  c == '\n' || c == '\r' || c == '\u0085' || c == '\u2028' || c == '\u2029'

/-- The first of these characters, if there are any, satisfies `p`; the end of the text counts as
satisfying it. -/
def nextIs (p : Char → Bool) (s : List Char) : Bool := s.head?.all p

/-- Blanks, line breaks and the end of the text. -/
def endsWord (s : List Char) : Bool := nextIs (fun c => c == ' ' || c == '\t' || isBreak c) s

/-- Spaces, line breaks and the end of the text. -/
def endsTag (s : List Char) : Bool := nextIs (fun c => c == ' ' || isBreak c) s

/-- Line breaks and the end of the text. -/
def endsLine (s : List Char) : Bool := nextIs isBreak s

/-- Characters that may stand in a stream. -/
def isAllowed (c : Char) : Bool :=
  let n := c.toNat
  n == 0x09 || n == 0x0A || n == 0x0D || (0x20 ≤ n && n ≤ 0x7E) || n == 0x85 ||
    (0xA0 ≤ n && n ≤ 0xD7FF) || (0xE000 ≤ n && n ≤ 0xFFFD) || 0x10000 ≤ n

end JavaOutline.Yaml
