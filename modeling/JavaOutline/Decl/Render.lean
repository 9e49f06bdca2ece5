import JavaOutline.Decl.Basic
import JavaOutline.Layout.Sink

/-! # The text of declarations

Each declaration is written into a sink in source form: its documentation, its modifiers, its
header and its members. The writers only append; the depth they end at is the depth they start
at. -/

namespace JavaOutline

open Sink

/-- Write each text followed by a space. -/
def writeWords (ws : List String) (s : Sink) : Sink :=
  ws.foldl (fun s w => (s.write w).write " ") s

/-- Write a text unless it is missing or empty. -/
def writeSome (t : Option String) (f : String → Sink → Sink) (s : Sink) : Sink :=
  match t with
  | none => s
  | some t => if t.isEmpty then s else f t s

namespace Header

/-- A tag on a line of a documentation block. -/
def writeTag (s : Sink) (t : Tag) : Sink :=
  let s := (s.write " * @").write t.name
  (if t.value.isEmpty then s else (s.write " ").write t.value).newline

/-- The body of a documentation block: a star before every line. -/
def writeBody (body : String) (s : Sink) : Sink :=
  (s.write " * ").writeLine
    (String.ofList (body.toList.flatMap fun c => if c = '\n' then ['\n', ' ', '*', ' '] else [c]))

/-- The documentation block; a bare star parts body and tags. Without either there is none. -/
def writeDoc (h : Header) (s : Sink) : Sink :=
  let hasBody := !(h.comment.getD "").isEmpty
  if !hasBody && h.tags.isEmpty then s
  else
    let s := s.writeLine "/**"
    let s := writeSome h.comment writeBody s
    let s := if hasBody && !h.tags.isEmpty then s.writeLine " *" else s
    (h.tags.foldl writeTag s).writeLine " */"

def writeAccessModifiers (h : Header) (s : Sink) : Sink :=
  writeWords (h.modifiers.filter isAccessModifier) s

def writeOtherModifiers (h : Header) (s : Sink) : Sink :=
  writeWords (h.modifiers.filter fun m => !isAccessModifier m) s

def writeModifiers (h : Header) (s : Sink) : Sink := writeWords h.modifiers s

/-- The documentation block on its own. -/
def docBlock (h : Header) (unit : String) : String := (h.writeDoc { unit }).text

end Header

/-- A parameter inside a parameter list. -/
def Parameter.write (p : Parameter) (s : Sink) : Sink :=
  let s := (p.writeModifiers s).write p.type
  let s := if p.varargs then s.write "..." else s
  (s.write " ").write p.name

/-- A field with its documentation, on lines of its own. -/
def Field.write (f : Field) (s : Sink) : Sink :=
  let s := f.writeModifiers (f.writeDoc s)
  let s := ((s.write f.type).write " ").write f.name
  let s := writeSome f.initializer (fun i s => (s.write " = ").write i) s
  s.writeLine ";"

namespace Method

/-- Parameters separated by commas. -/
def writeParameters : List Parameter → Sink → Sink
  | [], s => s
  | [p], s => p.write s
  | p :: q :: ps, s => writeParameters (q :: ps) ((p.write s).write ", ")

/-- The method's header; access modifiers come first, whatever order they were written in. -/
def writeDeclaration (m : Method) (s : Sink) : Sink :=
  let s := m.writeOtherModifiers (m.writeAccessModifiers s)
  let s := writeSome m.typeParameters (fun t s => (s.write t).write " ") s
  let s := if m.constructor then s
    else writeSome m.returnType (fun t s => (s.write t).write " ") s
  let s := (writeParameters m.parameters ((s.write m.name).write "(")).write ")"
  if m.exceptions.isEmpty then s
  else (s.write " throws ").write (", ".intercalate m.exceptions)

/-- What follows the header: a semicolon, or the body one step deeper between braces. -/
def writeBody (body : Option String) (s : Sink) : Sink :=
  match body with
  | none => s.writeLine ";"
  | some b =>
    let s := s.writeLine " \x7b"
    let s := if b.isEmpty then s else (s.indent.writeLine b).deindent
    s.writeLine "\x7d"

def write (m : Method) (s : Sink) : Sink := writeBody m.body (m.writeDeclaration (m.writeDoc s))

end Method

namespace TypeDecl

/-- Everything up to and including the opening brace. Interfaces extend other interfaces. -/
def writeHead (t : TypeDecl) (s : Sink) : Sink :=
  let s := t.writeModifiers (t.writeDoc s)
  let s := ((s.write t.keyword).write " ").write t.name
  let s := writeSome t.typeParameters (fun p s => s.write p) s
  let s := writeSome t.superclass (fun p s => (s.write " extends ").write p) s
  let s := if t.interfaces.isEmpty then s
    else (s.write (if t.isInterface then " extends " else " implements ")).write
      (", ".intercalate t.interfaces)
  s.writeLine " \x7b"

/-- The enum constants on one line. -/
def writeConstants (cs : List String) (s : Sink) : Sink :=
  (s.write (", ".intercalate cs)).writeLine ";"

/-- The parts of the body in order: the constants, if there are any, the fields, the methods. -/
def parts (t : TypeDecl) : List (Sink → Sink) :=
  (if t.constants.isEmpty then [] else [writeConstants t.constants]) ++
    t.fields.map Field.write ++ t.methods.map Method.write

/-- Parts separated by empty lines. -/
def writeParts : List (Sink → Sink) → Sink → Sink
  | [], s => s
  | [p], s => p s
  | p :: q :: ps, s => writeParts (q :: ps) (p s).newline

def write (t : TypeDecl) (s : Sink) : Sink :=
  ((writeParts t.parts (t.writeHead s).indent).deindent).writeLine "\x7d"

end TypeDecl

namespace CompilationUnit

/-- The package and import lines, each group followed by an empty line. -/
def writePreamble (u : CompilationUnit) (s : Sink) : Sink :=
  let s := writeSome u.package (fun p s => (s.writeLine ("package " ++ p ++ ";")).newline) s
  if u.imports.isEmpty then s
  else (u.imports.foldl (fun s i => s.writeLine ("import " ++ i ++ ";")) s).newline

def write (u : CompilationUnit) (s : Sink) : Sink :=
  TypeDecl.writeParts (u.types.map TypeDecl.write) (u.writePreamble s)

end CompilationUnit

/-! ## Blocks: a declaration on its own, with a given indentation -/

def Field.block (f : Field) (unit : String) : String := (f.write { unit }).text

def Method.block (m : Method) (unit : String) : String := (m.write { unit }).text

def TypeDecl.block (t : TypeDecl) (unit : String) : String := (t.write { unit }).text

def CompilationUnit.block (u : CompilationUnit) (unit : String) : String := (u.write { unit }).text

end JavaOutline
