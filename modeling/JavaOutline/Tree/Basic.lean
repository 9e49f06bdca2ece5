import JavaOutline.Text.CodePoint

/-! # Syntax trees

The syntax tree of a Java source text. A node has a kind, the field it fills in its parent, if
any, and its extent in bytes of the text. Nothing is assumed about the shape of a tree, nor about
the parser that it comes from. -/

namespace JavaOutline

/-- What a node says about itself. -/
structure NodeLabel where
  kind : String
  /-- Nodes that are not named are keywords and punctuation. -/
  named : Bool := true
  field : Option String := none
  start : Nat
  stop : Nat
  /-- The number of line feeds before the node. -/
  row : Nat
deriving DecidableEq, Repr, Inhabited

/-- A node and its children. -/
inductive SyntaxTree where
  | node (label : NodeLabel) (children : List SyntaxTree)
deriving Repr, Inhabited

namespace SyntaxTree

def label : SyntaxTree → NodeLabel
  | .node l _ => l

def children : SyntaxTree → List SyntaxTree
  | .node _ cs => cs

def kind (t : SyntaxTree) : String := t.label.kind

/-- The line the node starts on, counted from one. -/
def line (t : SyntaxTree) : Int := t.label.row + 1

@[simp] theorem label_node (l : NodeLabel) (cs : List SyntaxTree) : label (.node l cs) = l := rfl

@[simp] theorem children_node (l : NodeLabel) (cs : List SyntaxTree) :
    children (.node l cs) = cs := rfl

/-- The children that are named. -/
def namedChildren (t : SyntaxTree) : List SyntaxTree := t.children.filter (·.label.named)

/-- All children that fill a field. -/
def fieldChildren (t : SyntaxTree) (field : String) : List SyntaxTree :=
  t.children.filter (·.label.field == some field)

/-- The first child that fills a field. -/
def fieldChild? (t : SyntaxTree) (field : String) : Option SyntaxTree :=
  t.children.find? (·.label.field == some field)

/-- The first child of a kind. -/
def childOfKind? (t : SyntaxTree) (kind : String) : Option SyntaxTree :=
  t.children.find? (·.kind == kind)

/-- Pair each tree with the one before it. -/
def withPrevious : Option SyntaxTree → List SyntaxTree → List (Option SyntaxTree × SyntaxTree)
  | _, [] => []
  | p, t :: ts => (p, t) :: withPrevious (some t) ts

mutual

/-- The members a body's child stands for: itself, or for a group of members those inside. -/
def membersOfNode (p : Option SyntaxTree) : SyntaxTree → List (Option SyntaxTree × SyntaxTree)
  | .node l cs =>
    if l.kind = "enum_body_declarations" then membersOf none cs else [(p, .node l cs)]

/-- The members of a body from left to right, each with the node before it. -/
def membersOf (p : Option SyntaxTree) : List SyntaxTree → List (Option SyntaxTree × SyntaxTree)
  | [] => []
  | t :: ts => membersOfNode p t ++ membersOf (some t) ts

end

end SyntaxTree

/-! ## Parsing -/

/-- A syntax tree, and whether the text has syntax errors. -/
structure ParsedText where
  root : SyntaxTree
  hasError : Bool
deriving Repr, Inhabited

/-- Why a text is not parsed. -/
inductive ParseError where
  /-- Texts of the language cannot be parsed. -/
  | unsupportedLanguage (language : String)
  | unencodable (e : LoneSurrogate)
deriving DecidableEq, Repr, Inhabited

def ParseError.message : ParseError → String
  | .unsupportedLanguage language => "Unsupported language: " ++ language
  | .unencodable e => e.message

/-- Parse a text as it is in memory. -/
def ParsedText.ofText (parse : String → ParsedText) (s : List CodePoint) :
    Except LoneSurrogate ParsedText := parse <$> CodePoint.encode s

/-- Parse a text of a language, which has to be `java`. -/
def ParsedText.inLanguage (parse : String → ParsedText) (language : String) (s : List CodePoint) :
    Except ParseError ParsedText :=
  if language = "java" then
    match ofText parse s with
    | .ok parsed => .ok parsed
    | .error e => .error (.unencodable e)
  else .error (.unsupportedLanguage language)

end JavaOutline
