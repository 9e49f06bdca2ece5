import JavaOutline.Graph.Live

/-! # The values of objects

What an object looks like at a moment: the declaration that its attributes and those of its
members make up. Text is always written from that value. -/

namespace JavaOutline.Graph

/-- A parameter as a value. -/
def parameter? (g : Graph) (e : EntityId) : Option Parameter :=
  match g.entity e with
  | { header, form := .parameter type varargs, .. } => some { header with type, varargs }
  | _ => none

/-- A field as a value. -/
def field? (g : Graph) (e : EntityId) : Option Field :=
  match g.entity e with
  | { header, form := .field type initializer, .. } => some { header with type, initializer }
  | _ => none

/-- A method as a value. -/
def method? (g : Graph) (e : EntityId) : Option Method :=
  match g.entity e with
  | { header, form := .method head ps, .. } =>
    some { header, head with parameters := ps.filterMap g.parameter? }
  | _ => none

/-- A type as a value. -/
def type? (g : Graph) (e : EntityId) : Option TypeDecl :=
  match g.entity e with
  | { header, form := .type head fs ms _ _, .. } =>
    some { header, head with fields := fs.filterMap g.field?, methods := ms.filterMap g.method? }
  | _ => none

/-- A unit as a value. -/
def unitValue (g : Graph) (u : UnitId) : CompilationUnit :=
  let o := g.unit u
  { path := o.path, package := o.package, imports := o.imports
    types := o.types.filterMap g.type? }

/-- How an entity is written in source form, if its kind has one. -/
def writeEntity? (g : Graph) (e : EntityId) : Option (Sink → Sink) :=
  match (g.entity e).form with
  | .plain => none
  | .parameter .. => (g.parameter? e).map Parameter.write
  | .field .. => (g.field? e).map Field.write
  | .method .. => (g.method? e).map Method.write
  | .type .. => (g.type? e).map TypeDecl.write

/-! ## One-line descriptions -/

/-- An object in one line. -/
def describe (g : Graph) : Ref → String
  | .entity e =>
    let o := g.entity e
    o.form.word ++ "(name=" ++ Text.quoted o.header.name ++ ", modifiers=" ++
      Text.quotedList o.header.modifiers ++ ")"
  | .unit u =>
    let o := g.unit u
    "JavaSource(file_path=" ++ Text.quotedOption o.path ++ ", package=" ++
      Text.quotedOption o.package ++ ")"
  | .package p =>
    let o := g.package p
    "JavaPackage(name=" ++ Text.quoted o.name ++ ", classes=" ++ toString o.types.length ++ ")"
  | .registry _ => "SourceLibrary()"
  | .sink _ => "IndentBuffer()"
  | .tag t => t.describe

/-- The word for the kind of an object. -/
def wordOf (g : Graph) : Ref → String
  | .entity e => (g.entity e).form.word
  | .unit _ => "JavaSource"
  | .package _ => "JavaPackage"
  | .registry _ => "SourceLibrary"
  | .sink _ => "IndentBuffer"
  | .tag _ => "DocletTag"

end JavaOutline.Graph
