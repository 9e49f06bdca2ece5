import JavaOutline.Decl.Basic
import JavaOutline.Text.Slice
import JavaOutline.Tree.Basic

/-! # The outline of a syntax tree

The compilation unit that a syntax tree describes: its classes, interfaces and enums with their
fields, methods and parameters. Annotations are left out of the modifiers, a documentation
comment right before a declaration documents it, and everything else in the tree is passed over.
In a text that can be encoded, the one thing that can go wrong is a node whose ends cut a
character. -/

namespace JavaOutline

open Text

/-- A result that fails when a node cuts a character. -/
abbrev Outlined := Except CutCharacter

namespace SyntaxTree

/-- The text of a node. -/
def text (src : List Char) (t : SyntaxTree) : Outlined (List Char) :=
  slice src t.label.start t.label.stop

/-- The text of a node as a string. -/
def string (src : List Char) (t : SyntaxTree) : Outlined String := String.ofList <$> t.text src

/-- The text of a node that may be missing, empty if it is. -/
def stringD (src : List Char) : Option SyntaxTree → Outlined String
  | none => pure ""
  | some t => t.string src

/-- The text of the first child that fills a field, empty without one. -/
def fieldString (src : List Char) (t : SyntaxTree) (field : String) : Outlined String :=
  stringD src (t.fieldChild? field)

/-- A text, unless it is empty. -/
def nonEmpty? (s : String) : Option String := if s.isEmpty then none else some s

/-- A type with the brackets written behind the declared name. -/
def typeString (src : List Char) (t dims : SyntaxTree) : Outlined String := do
  let a ← t.fieldString src "type"
  let b ← dims.fieldString src "dimensions"
  pure (a ++ b)

/-! ## Parts of a declaration -/

/-- Whether a node is an annotation. -/
def annotates (t : SyntaxTree) : Bool := t.kind == "marker_annotation" || t.kind == "annotation"

/-- The modifiers in source order, annotations left out. -/
def modifiers (src : List Char) (t : SyntaxTree) : Outlined (List String) :=
  match t.childOfKind? "modifiers" with
  | none => pure []
  | some m => (m.children.filter fun c => !annotates c).mapM (string src)

/-- The documentation given by the node before a declaration. -/
def documentation (src : List Char) : Option SyntaxTree → Outlined Doc
  | none => pure { body := none, tags := [] }
  | some p =>
    if p.kind = "block_comment" then do
      let s ← p.text src
      pure (if Doc.isDocComment s then Doc.read (String.ofList s) p.line
        else { body := none, tags := [] })
    else pure { body := none, tags := [] }

/-- The header of a declaration with a given name and line; modifiers and documentation are
those of the declaration's node. -/
def header (src : List Char) (before : Option SyntaxTree) (t : SyntaxTree) (name : String)
    (line : Int) : Outlined Header := do
  let modifiers ← t.modifiers src
  let doc ← documentation src before
  pure { name, line, modifiers, comment := doc.body, tags := doc.tags }

/-- The types of a list of interfaces: those of the list inside, or of the node itself. -/
def typeList (src : List Char) (t : SyntaxTree) : Outlined (List String) :=
  ((t.namedChildren.find? (·.kind == "type_list")).getD t).namedChildren.mapM (string src)

/-- The exceptions a method declares. -/
def exceptions (src : List Char) (t : SyntaxTree) : Outlined (List String) :=
  match t.childOfKind? "throws" with
  | none => pure []
  | some e => e.namedChildren.mapM (string src)

/-- The text between a body's braces: blank lines at both ends are dropped, blanks at the end of
a line as well, and then the indentation that all lines share. -/
def bodyText (s : List Char) : List Char :=
  let inside := ((trim s).drop 1).dropLast
  unlines (dedentLines ((trimBlankLines (lines inside)).map trimEnd))

/-- The body of a method, if it has one. -/
def body? (src : List Char) (t : SyntaxTree) : Outlined (Option String) :=
  match t.fieldChild? "body" with
  | none => pure none
  | some b => (fun s => some (String.ofList (bodyText s))) <$> b.text src

/-! ## Declarations -/

/-- The type and name of a parameter that takes any number of arguments: the first type with any
text, and the name of the last declarator. -/
def spreadParts (src : List Char) : List SyntaxTree → String × String → Outlined (String × String)
  | [], parts => pure parts
  | c :: cs, (type, name) =>
    if c.kind = "variable_declarator" then do
      let n ← c.fieldString src "name"
      spreadParts src cs (type, n)
    else if c.kind ≠ "modifiers" ∧ type.isEmpty then do
      let t ← c.string src
      spreadParts src cs (t, name)
    else spreadParts src cs (type, name)

/-- A formal parameter; receivers and comments are none. -/
def parameter? (src : List Char) (t : SyntaxTree) : Outlined (Option Parameter) :=
  if t.kind = "formal_parameter" then do
    let name ← t.fieldString src "name"
    let type ← typeString src t t
    let modifiers ← t.modifiers src
    pure (some { name, type, modifiers, line := t.line })
  else if t.kind = "spread_parameter" then do
    let (type, name) ← spreadParts src t.namedChildren ("", "")
    let modifiers ← t.modifiers src
    pure (some { name, type, modifiers, varargs := true, line := t.line })
  else pure none

/-- The parameters of a method. -/
def parameters (src : List Char) (t : SyntaxTree) : Outlined (List Parameter) :=
  match t.fieldChild? "parameters" with
  | none => pure []
  | some ps => (·.filterMap id) <$> ps.namedChildren.mapM (parameter? src)

/-- A method or constructor. -/
def method (src : List Char) (before : Option SyntaxTree) (t : SyntaxTree) (constructor : Bool) :
    Outlined Method := do
  let returnType ← if constructor then pure none else some <$> typeString src t t
  let name ← t.fieldString src "name"
  let exceptions ← t.exceptions src
  let typeParameters ← nonEmpty? <$> t.fieldString src "type_parameters"
  let body ← t.body? src
  let h ← t.header src before name t.line
  let parameters ← t.parameters src
  pure { h with returnType, exceptions, typeParameters, body, constructor, parameters }

/-- One variable of a field declaration; modifiers and documentation are the declaration's. -/
def field (src : List Char) (before : Option SyntaxTree) (t declarator : SyntaxTree) :
    Outlined Field := do
  let name ← declarator.fieldString src "name"
  let type ← typeString src t declarator
  let initializer ← (declarator.fieldChild? "value").mapM (string src)
  let h ← t.header src before name declarator.line
  pure { h with type, initializer }

/-- All variables of a field declaration. -/
def fields (src : List Char) (before : Option SyntaxTree) (t : SyntaxTree) :
    Outlined (List Field) := do
  let _ ← t.fieldString src "type"
  (t.fieldChildren "declarator").mapM (field src before t)

/-- What a member adds to its type. -/
inductive Member where
  | fields (fs : List Field)
  | method (m : Method)
  | constant (name : String)
  | nothing
deriving Repr, Inhabited

namespace Member

def fields? : Member → List Field
  | .fields fs => fs
  | _ => []

def method? : Member → Option Method
  | .method m => some m
  | _ => none

def constant? : Member → Option String
  | .constant c => some c
  | _ => none

end Member

/-- A member of a body with the node before it; what is no field, method or enum constant adds
nothing. -/
def member (src : List Char) (m : Option SyntaxTree × SyntaxTree) : Outlined Member :=
  let (before, t) := m
  if t.kind = "field_declaration" ∨ t.kind = "constant_declaration" then
    .fields <$> t.fields src before
  else if t.kind = "method_declaration" then .method <$> t.method src before false
  else if t.kind = "constructor_declaration" then .method <$> t.method src before true
  else if t.kind = "enum_constant" then .constant <$> t.fieldString src "name"
  else pure .nothing

/-- The members of a type's body, in order. -/
def members (src : List Char) (t : SyntaxTree) : Outlined (List Member) :=
  match t.fieldChild? "body" with
  | none => pure []
  | some b => (membersOf none b.children).mapM (member src)

/-- The keyword of a type declaration that is outlined. -/
def typeKeyword? (t : SyntaxTree) : Option String :=
  if t.kind = "class_declaration" then some "class"
  else if t.kind = "interface_declaration" then some "interface"
  else if t.kind = "enum_declaration" then some "enum"
  else none

/-- The type a class extends: the last part of its clause. -/
def superclass? (src : List Char) (t : SyntaxTree) : Outlined (Option String) :=
  ((t.fieldChild? "superclass").bind (·.namedChildren.getLast?)).mapM (string src)

/-- The interfaces of all clauses, in order. -/
def interfaces (src : List Char) (t : SyntaxTree) : Outlined (List String) :=
  List.flatten <$> (t.children.filter fun c =>
    c.kind == "super_interfaces" || c.kind == "extends_interfaces").mapM (typeList src)

/-- A class, interface or enum. -/
def typeDecl (src : List Char) (before : Option SyntaxTree) (t : SyntaxTree) (keyword : String) :
    Outlined TypeDecl := do
  let name ← t.fieldString src "name"
  let typeParameters ← nonEmpty? <$> t.fieldString src "type_parameters"
  let h ← t.header src before name t.line
  let superclass ← t.superclass? src
  let interfaces ← t.interfaces src
  let ms ← t.members src
  pure { h with
    keyword, superclass, interfaces, typeParameters
    constants := ms.filterMap Member.constant?
    fields := ms.flatMap Member.fields?
    methods := ms.filterMap Member.method? }

/-! ## Compilation units -/

/-- The node of a package's name: the first name in a package declaration that has one. -/
def packageNode? (root : SyntaxTree) : Option SyntaxTree :=
  (root.children.filter (·.kind == "package_declaration")).findSome? fun p =>
    p.namedChildren.find? fun c => c.kind == "scoped_identifier" || c.kind == "identifier"

/-- What an import declaration names, its blanks collapsed. -/
def importText (s : List Char) : List Char :=
  collapseBlanks (dropEndWhile (· == ';') ((trim s).drop 6))

/-- The imports in source order. -/
def imports (src : List Char) (root : SyntaxTree) : Outlined (List String) :=
  (root.children.filter (·.kind == "import_declaration")).mapM fun c =>
    (fun s => String.ofList (importText s)) <$> c.text src

end SyntaxTree

open SyntaxTree

/-- The compilation unit that a syntax tree of a text describes. -/
def CompilationUnit.ofTree (src : String) (root : SyntaxTree) (path : Option String) :
    Outlined CompilationUnit := do
  let cs := src.toList
  let package ← root.packageNode?.mapM (string cs)
  let imports ← root.imports cs
  let types ← (withPrevious none root.children).filterMapM fun (before, t) =>
    t.typeKeyword?.mapM (t.typeDecl cs before)
  pure { path, package, imports, types }

/-- Why there is no outline. -/
inductive OutlineError where
  | unencodable (e : LoneSurrogate)
  | cut (e : Text.CutCharacter)
deriving DecidableEq, Repr, Inhabited

/-- The compilation unit that a syntax tree describes of a text as it is in memory. -/
def CompilationUnit.ofText (src : List CodePoint) (root : SyntaxTree) (path : Option String) :
    Except OutlineError CompilationUnit :=
  match CodePoint.encode src with
  | .error e => .error (.unencodable e)
  | .ok s => match CompilationUnit.ofTree s root path with
    | .error e => .error (.cut e)
    | .ok u => .ok u

end JavaOutline
