import JavaOutline.Doc.Comment

/-! # Declarations

The declarations of a compilation unit as values. Types, initializers and bodies are the raw text
of the source; nothing is resolved. -/

namespace JavaOutline

/-- What every declaration has. Modifiers stand in the order they are written. -/
structure Header where
  name : String := ""
  line : Int := 0
  modifiers : List String := []
  comment : Option String := none
  tags : List Tag := []
deriving DecidableEq, Repr, Inhabited

/-- A formal parameter. -/
structure Parameter extends Header where
  type : String := ""
  varargs : Bool := false
deriving DecidableEq, Repr, Inhabited

/-- One variable of a field declaration; `int a, b;` declares two. -/
structure Field extends Header where
  type : String := ""
  initializer : Option String := none
deriving DecidableEq, Repr, Inhabited

/-- What a method has besides its parameters. A constructor has no return type. A method without
a body ends in a semicolon. -/
structure MethodHead where
  returnType : Option String := none
  exceptions : List String := []
  typeParameters : Option String := none
  body : Option String := none
  constructor : Bool := false
deriving DecidableEq, Repr, Inhabited

/-- A method or constructor. -/
structure Method extends Header, MethodHead where
  parameters : List Parameter := []
deriving DecidableEq, Repr, Inhabited

/-- What a type has besides its members. -/
structure TypeHead where
  /-- The keyword that declares it: `class`, `interface` or `enum`. -/
  keyword : String := "class"
  superclass : Option String := none
  interfaces : List String := []
  typeParameters : Option String := none
  constants : List String := []
deriving DecidableEq, Repr, Inhabited

/-- A top-level class, interface or enum. -/
structure TypeDecl extends Header, TypeHead where
  fields : List Field := []
  methods : List Method := []
deriving DecidableEq, Repr, Inhabited

/-- What one file of source text declares. -/
structure CompilationUnit where
  path : Option String := none
  package : Option String := none
  imports : List String := []
  types : List TypeDecl := []
deriving DecidableEq, Repr, Inhabited

namespace TypeHead

def isInterface (t : TypeHead) : Bool := t.keyword == "interface"

def isEnum (t : TypeHead) : Bool := t.keyword == "enum"

end TypeHead

/-- The modifiers that set who may use a declaration. -/
def isAccessModifier (m : String) : Bool := m == "public" || m == "protected" || m == "private"

/-- A name inside a package; the unnamed package adds nothing. -/
def qualify (package name : String) : String :=
  if package.isEmpty then name else package ++ "." ++ name

namespace Header

def hasModifier (h : Header) (m : String) : Bool := h.modifiers.contains m

/-- The tags with this name, in order. -/
def tagsNamed (h : Header) (name : String) : List Tag := h.tags.filter (·.name == name)

/-- The first tag with this name. -/
def tagNamed? (h : Header) (name : String) : Option Tag := h.tags.find? (·.name == name)

/-- A named parameter of the first tag with this name. -/
def namedParameter? (h : Header) (tag key : String) : Option String :=
  (h.tagNamed? tag).bind (·.namedParameter? key)

end Header

/-- Name and parameter types, as in `add(int, int)`. -/
def Method.signature (m : Method) : String :=
  m.name ++ "(" ++ ", ".intercalate
    (m.parameters.map fun p => p.type ++ (if p.varargs then "..." else "")) ++ ")"

namespace CompilationUnit

/-- The package's name, empty for the unnamed package. -/
def packageName (u : CompilationUnit) : String := u.package.getD ""

/-- The name of one of the unit's types inside its package. -/
def qualifiedName (u : CompilationUnit) (t : TypeDecl) : String := qualify u.packageName t.name

end CompilationUnit

end JavaOutline
