import JavaOutline.Java.Cursor

/-! # The grammar of declarations

Compilation units as far as an outline looks into them: packages, imports, classes, interfaces and
enums with their fields, methods and parameters. Types, expressions, method bodies and all other
declarations are nodes without children. -/

namespace JavaOutline.Reader

/-! ## Names, annotations, types -/

/-- A name with dots. -/
def qualifiedName : Reader SyntaxTree :=
  (do
    let first ← ahead fun ts => (ts[1]?).any (·.is ".")
    guard first
    opaqueNode "scoped_identifier" none (separated (identifier none) "."))
  <|> identifier none

/-- Whether an annotation comes next, and not the declaration of one. -/
def startsAnnotation (ts : List Token) : Bool :=
  (ts[0]?).any (·.is "@") && (ts[1]?).any fun t => t.isWordToken && !t.is "interface"

/-- An annotation, with arguments or without. -/
def annotationNode : Reader SyntaxTree := do
  guard (← ahead startsAnnotation)
  let name := (do let _ ← mark "@"; qualifiedName)
  opaqueNode "annotation" none (do let _ ← name; brackets "(")
    <|> opaqueNode "marker_annotation" none name

/-- Pairs of brackets behind a type or a name. -/
def dimension : Reader Unit := do
  let _ ← many annotationNode
  let _ ← mark "["
  let _ ← mark "]"

/-- One part of a type's name with its type arguments. -/
def typePart : Reader Unit := do
  let _ ← many annotationNode
  let _ ← identifier none
  let _ ← optional? angles

/-- A type without annotations in front. -/
def skipType : Reader Unit := do
  let _ ← token Token.startsTypeName
  let _ ← optional? angles
  let _ ← many (do let _ ← mark "."; typePart)
  let _ ← many dimension

/-- A type that fills a field. -/
def typeNode (field : Option String) : Reader SyntaxTree := opaqueNode "type" field skipType

/-- A type with the annotations in front of it. -/
def annotatedType : Reader SyntaxTree :=
  opaqueNode "type" none (do let _ ← many annotationNode; skipType)

/-- All brackets behind a name. -/
def dimensions : Reader (List SyntaxTree) :=
  maybe ((fun t => [t]) <$> opaqueNode "dimensions" (some "dimensions")
    (do let _ ← dimension; many dimension))

def typeParameters : Reader (List SyntaxTree) :=
  maybe ((fun t => [t]) <$> opaqueNode "type_parameters" (some "type_parameters") angles)

/-! ## Modifiers -/

/-- The modifiers that are always keywords. -/
def modifierWords : List String :=
  ["public", "protected", "private", "abstract", "static", "final", "strictfp", "default",
   "synchronized", "native", "transient", "volatile"]

/-- Whether a modifier keyword comes next. The word `sealed` is one only before another word, an
annotation or type parameters. -/
def startsModifier (ts : List Token) : Bool :=
  match ts with
  | t :: u :: _ =>
    (t.isWordToken && modifierWords.contains t.text) ||
      (t.is "sealed" && (u.isWordToken || u.is "@" || u.is "<"))
  | _ => false

/-- The modifier `non-sealed`, which is three tokens with nothing between them. -/
def nonSealed : Reader SyntaxTree := do
  let a ← token (·.is "non")
  let b ← token fun b => b.is "-" && b.start == a.stop
  let c ← token fun c => c.is "sealed" && c.start == b.stop
  pure (leafOf { a with stop := c.stop } "non-sealed" false none)

/-- One modifier or annotation. -/
def modifier : Reader SyntaxTree :=
  annotationNode <|> nonSealed <|> (do
    guard (← ahead startsModifier)
    let t ← token fun _ => true
    pure (leafOf t t.text false none))

/-- The node of all modifiers, if there are any. -/
def modifiers : Reader (List SyntaxTree) :=
  maybe ((fun t => [t]) <$> node "modifiers" none (do
    let m ← modifier
    let ms ← many modifier
    pure (m :: ms)))

/-! ## Members -/

/-- The parameter that stands for the object itself. -/
def receiver : Reader SyntaxTree := opaqueNode "receiver_parameter" none do
  let _ ← modifiers
  let _ ← skipType
  let _ ← many (do let _ ← identifier none; mark ".")
  mark "this"

/-- A parameter that takes any number of arguments. -/
def spreadParameter : Reader SyntaxTree := node "spread_parameter" none do
  let ms ← modifiers
  let t ← typeNode none
  let as ← many annotationNode
  let dots ← mark "..."
  let d ← node "variable_declarator" none (do
    let n ← identifier (some "name")
    let ds ← dimensions
    pure (n :: ds))
  pure (ms ++ [t] ++ as ++ [dots, d])

def formalParameter : Reader SyntaxTree := node "formal_parameter" none do
  let ms ← modifiers
  let t ← typeNode (some "type")
  let n ← identifier (some "name")
  let ds ← dimensions
  pure (ms ++ [t, n] ++ ds)

def parameterList : Reader SyntaxTree := node "formal_parameters" (some "parameters") do
  let l ← mark "("
  let ps ← maybe (separated (receiver <|> spreadParameter <|> formalParameter) ",")
  let r ← mark ")"
  pure (l :: ps ++ [r])

def throwsClause : Reader (List SyntaxTree) :=
  maybe ((fun t => [t]) <$> node "throws" none (do
    let w ← mark "throws"
    let ts ← separated annotatedType ","
    pure (w :: ts)))

/-- A block, or the semicolon in its place. -/
def bodyOrSemicolon (kind : String) : Reader SyntaxTree :=
  opaqueNode kind (some "body") (brackets Token.openBrace) <|> mark ";"

/-- A constructor behind its modifiers. -/
def constructorRest : Reader (List SyntaxTree) := do
  let tp ← typeParameters
  let n ← identifier (some "name")
  let ps ← parameterList
  let th ← throwsClause
  let b ← bodyOrSemicolon "constructor_body"
  pure (tp ++ [n, ps] ++ th ++ [b])

/-- A method behind its modifiers. -/
def methodRest : Reader (List SyntaxTree) := do
  let tp ← typeParameters
  let as ← many annotationNode
  let t ← typeNode (some "type")
  let n ← identifier (some "name")
  let ps ← parameterList
  let ds ← dimensions
  let th ← throwsClause
  let b ← bodyOrSemicolon "block"
  pure (tp ++ as ++ [t, n, ps] ++ ds ++ th ++ [b])

/-- One variable with the value it starts with. -/
def declarator : Reader SyntaxTree := node "variable_declarator" (some "declarator") do
  let n ← identifier (some "name")
  let ds ← dimensions
  let v ← maybe (do
    let e ← mark "="
    let v ← opaqueNode "value" (some "value") expression
    pure [e, v])
  pure (n :: ds ++ v)

/-- A field declaration behind its modifiers. -/
def fieldRest : Reader (List SyntaxTree) := do
  let t ← typeNode (some "type")
  let ds ← separated declarator ","
  let s ← mark ";"
  pure (t :: ds ++ [s])

/-- Skip up to and behind the block that comes next. -/
def throughBlock : Reader Unit := do
  let _ ← many (brackets "(" <|> brackets "[" <|>
    (do let _ ← token fun t => !t.opens && !t.closes))
  brackets Token.openBrace

/-- Whether the next words start the declaration of a type. -/
def startsType (ts : List Token) : Bool :=
  match ts with
  | t :: u :: v :: _ =>
    t.is "class" || t.is "interface" || t.is "enum" || (t.is "@" && u.is "interface") ||
      (t.is "record" && u.isWordToken && (v.is "(" || v.is "<"))
  | _ => false

/-- A type that is passed over. -/
def hiddenType : Reader SyntaxTree := opaqueNode "hidden_type" none do
  let _ ← modifiers
  guard (← ahead startsType)
  let _ ← token fun _ => true
  throughBlock

/-- A block of initializing statements. -/
def initializer : Reader SyntaxTree := opaqueNode "block" none do
  let _ ← optional? (mark "static")
  brackets Token.openBrace

/-- A member of a type whose fields are nodes of kind `fieldKind`. -/
def member (fieldKind : String) : Reader SyntaxTree :=
  mark ";" <|> initializer <|> hiddenType
    <|> node "constructor_declaration" none (do
      let ms ← modifiers
      let r ← constructorRest
      pure (ms ++ r))
    <|> node "method_declaration" none (do
      let ms ← modifiers
      let r ← methodRest
      pure (ms ++ r))
    <|> node fieldKind none (do
      let ms ← modifiers
      let r ← fieldRest
      pure (ms ++ r))

/-! ## Types -/

/-- A clause of interfaces. -/
def interfaceClause (kind : String) (field : Option String) (keyword : String) :
    Reader (List SyntaxTree) :=
  maybe ((fun t => [t]) <$> node kind field (do
    let w ← mark keyword
    let ts ← node "type_list" none (separated annotatedType ",")
    pure [w, ts]))

def superclass : Reader (List SyntaxTree) :=
  maybe ((fun t => [t]) <$> node "superclass" (some "superclass") (do
    let w ← mark "extends"
    let t ← annotatedType
    pure [w, t]))

/-- A body of members. -/
def typeBody (kind fieldKind : String) : Reader SyntaxTree := node kind (some "body") do
  let l ← mark Token.openBrace
  let ms ← many (member fieldKind)
  let r ← mark Token.closeBrace
  pure (l :: ms ++ [r])

def enumConstant : Reader SyntaxTree := node "enum_constant" none do
  let ms ← modifiers
  let n ← identifier (some "name")
  let _ ← optional? (brackets "(")
  let _ ← optional? (brackets Token.openBrace)
  pure (ms ++ [n])

def enumBody : Reader SyntaxTree := node "enum_body" (some "body") do
  let l ← mark Token.openBrace
  let cs ← maybe (separated enumConstant ",")
  let comma ← many (mark ",")
  let group ← maybe ((fun t => [t]) <$> node "enum_body_declarations" none (do
    let s ← mark ";"
    let ms ← many (member "field_declaration")
    pure (s :: ms)))
  let r ← mark Token.closeBrace
  pure (l :: cs ++ comma ++ group ++ [r])

/-- A class behind its modifiers. -/
def classRest : Reader (List SyntaxTree) := do
  let w ← mark "class"
  let n ← identifier (some "name")
  let tp ← typeParameters
  let sup ← superclass
  let is ← interfaceClause "super_interfaces" (some "interfaces") "implements"
  let ps ← interfaceClause "permits" (some "permits") "permits"
  let b ← typeBody "class_body" "field_declaration"
  pure (w :: n :: tp ++ sup ++ is ++ ps ++ [b])

/-- An interface behind its modifiers. -/
def interfaceRest : Reader (List SyntaxTree) := do
  let w ← mark "interface"
  let n ← identifier (some "name")
  let tp ← typeParameters
  let is ← interfaceClause "extends_interfaces" none "extends"
  let ps ← interfaceClause "permits" (some "permits") "permits"
  let b ← typeBody "interface_body" "constant_declaration"
  pure (w :: n :: tp ++ is ++ ps ++ [b])

/-- An enum behind its modifiers. -/
def enumRest : Reader (List SyntaxTree) := do
  let w ← mark "enum"
  let n ← identifier (some "name")
  let is ← interfaceClause "super_interfaces" (some "interfaces") "implements"
  let b ← enumBody
  pure (w :: n :: is ++ [b])

/-! ## Compilation units -/

def packageNode : Reader SyntaxTree := node "package_declaration" none do
  let as ← many annotationNode
  let w ← mark "package"
  let n ← qualifiedName
  let s ← mark ";"
  pure (as ++ [w, n, s])

/-- An import, from its keyword to its semicolon. -/
def importNode : Reader SyntaxTree := opaqueNode "import_declaration" none do
  let _ ← mark "import"
  let _ ← many (token fun t => t.isWordToken || t.is "." || t.is "*")
  mark ";"

/-- A module declaration. -/
def moduleNode : Reader SyntaxTree := opaqueNode "module_declaration" none do
  let _ ← many annotationNode
  let _ ← optional? (mark "open")
  let _ ← mark "module"
  let _ ← qualifiedName
  brackets Token.openBrace

/-- A declaration behind its modifiers, as a node. -/
def withModifiers (kind : String) (p : Reader (List SyntaxTree)) : Reader SyntaxTree :=
  node kind none (do
    let ms ← modifiers
    let r ← p
    pure (ms ++ r))

/-- A method or variables outside of all types, which are passed over. -/
def looseMember : Reader SyntaxTree := opaqueNode "hidden_member" none do
  let _ ← modifiers
  methodRest <|> fieldRest

/-- What stands at the top of a source text. -/
def topLevel : Reader SyntaxTree :=
  mark ";" <|> packageNode <|> importNode
    <|> withModifiers "class_declaration" classRest
    <|> withModifiers "interface_declaration" interfaceRest
    <|> withModifiers "enum_declaration" enumRest
    <|> hiddenType <|> moduleNode <|> looseMember

end JavaOutline.Reader
