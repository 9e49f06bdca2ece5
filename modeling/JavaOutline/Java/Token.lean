import JavaOutline.Text.Blank
import JavaOutline.Text.Slice

/-! # Tokens

A Java source text is a sequence of words, literals, comments and punctuation marks with blanks
between them. Every token knows its extent in bytes and the number of line feeds before it. -/

namespace JavaOutline

open Text

/-- What a token is. -/
inductive TokenKind where
  /-- A keyword or identifier. -/
  | word
  /-- A number, character, string or text block. -/
  | literal
  /-- One character, or the three dots of a variable parameter list. -/
  | mark
  | blockComment
  | lineComment
deriving DecidableEq, Repr, Inhabited

/-- A token with its text and place. -/
structure Token where
  kind : TokenKind
  text : String
  start : Nat
  stop : Nat
  row : Nat
deriving DecidableEq, Repr, Inhabited

namespace Token

/-- Characters of a word after the first. Beyond ASCII every character that is no blank is one. -/
def isWordPart (c : Char) : Bool :=
  c.isAlphanum || c == '_' || c == '$' || (0x80 ≤ c.toNat && !isBlank c)

/-- First characters of a word. -/
def isWordStart (c : Char) : Bool := isWordPart c && !c.isDigit

/-- How far a literal goes that ends with `close`, which a backslash escapes; the count includes
the closing text. -/
def throughClose (close : List Char) : List Char → Nat
  | [] => 0
  | ['\\'] => 1
  | '\\' :: _ :: r => throughClose close r + 2
  | c :: r => if close.isPrefixOf (c :: r) then close.length else throughClose close r + 1

/-- How far a block comment goes, the closing mark included. -/
def throughComment : List Char → Nat
  | '*' :: '/' :: _ => 2
  | _ :: r => throughComment r + 1
  | [] => 0

/-- The kind of the token that starts with `c`, and how many of the characters after `c` belong
to it. -/
def extent (c : Char) (r : List Char) : TokenKind × Nat :=
  if c = '/' ∧ r.head? = some '/' then (.lineComment, (r.takeWhile (· ≠ '\n')).length)
  else if c = '/' ∧ r.head? = some '*' then (.blockComment, throughComment (r.drop 1) + 1)
  else if c = '"' then
    if ['"', '"'].isPrefixOf r then (.literal, throughClose ['"', '"', '"'] (r.drop 2) + 2)
    else (.literal, throughClose ['"'] r)
  else if c = '\'' then (.literal, throughClose ['\''] r)
  else if c.isDigit ∨ (c = '.' ∧ (r.head?.any Char.isDigit)) then
    (.literal, (r.takeWhile fun d => isWordPart d || d == '.').length)
  else if isWordStart c then (.word, (r.takeWhile isWordPart).length)
  else if c = '.' ∧ ['.', '.'].isPrefixOf r then (.mark, 2)
  else (.mark, 0)

/-- The tokens of a text that starts at byte `pos` after `row` line feeds. -/
def scanFrom (pos row : Nat) : List Char → List Token
  | [] => []
  | c :: r =>
    if isBlank c then scanFrom (pos + c.utf8Size) (if c = '\n' then row + 1 else row) r
    else
      let e := extent c r
      let inside := c :: r.take e.2
      let stop := pos + byteLength inside
      { kind := e.1, text := String.ofList inside, start := pos, stop, row } ::
        scanFrom stop (row + inside.count '\n') (r.drop e.2)
termination_by s => s.length
decreasing_by all_goals (simp only [List.length_cons, List.length_drop]; omega)

/-- The tokens of a text, comments included. A byte order mark in front is passed over. -/
def scan (s : String) : List Token :=
  match s.toList with
  | '\ufeff' :: r => scanFrom '\ufeff'.utf8Size 0 r
  | cs => scanFrom 0 0 cs

def isComment (t : Token) : Bool := t.kind == .blockComment || t.kind == .lineComment

def isWordToken (t : Token) : Bool := t.kind == .word

/-- The keywords that name a primitive type, or the lack of a result. -/
def primitiveWords : List String :=
  ["boolean", "byte", "char", "double", "float", "int", "long", "short", "void"]

/-- The other words that are keywords wherever they stand. -/
def keywords : List String :=
  ["abstract", "assert", "break", "case", "catch", "class", "const", "continue", "default", "do",
   "else", "enum", "extends", "false", "final", "finally", "for", "goto", "if", "implements",
   "import", "instanceof", "interface", "native", "new", "null", "package", "private",
   "protected", "public", "return", "static", "strictfp", "super", "switch", "synchronized",
   "this", "throw", "throws", "transient", "true", "try", "volatile", "while"]

/-- A word that can be chosen as a name. -/
def isName (t : Token) : Bool :=
  t.isWordToken && !keywords.contains t.text && !primitiveWords.contains t.text

/-- A word that can start a type. The words `record` and `sealed` are names, but not of types. -/
def startsTypeName (t : Token) : Bool :=
  t.isWordToken && !keywords.contains t.text && t.text != "record" && t.text != "sealed"

/-- The kind of a token that is the given keyword or mark. -/
def kindOf (text : String) : TokenKind :=
  if text.toList.head?.any isWordStart then .word else .mark

/-- Whether a token is the given keyword or mark. -/
def is (t : Token) (text : String) : Bool := t.text == text && t.kind == kindOf text

/-- The mark that opens a block. -/
def openBrace : String := "\x7b"

/-- The mark that closes a block. -/
def closeBrace : String := "\x7d"

def opens (t : Token) : Bool := t.is "(" || t.is "[" || t.is openBrace

def closes (t : Token) : Bool := t.is ")" || t.is "]" || t.is closeBrace

end Token

end JavaOutline
