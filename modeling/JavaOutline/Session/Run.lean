import JavaOutline.Graph.Change
import JavaOutline.Session.Read

/-! # Running steps

A step takes a graph to the next one. A step that fails leaves the graph as it is, but for the
making of a method, where the parameters before the faulty one have been handed over. -/

namespace JavaOutline.Session

open JavaOutline

/-- The entity bound to a handle. -/
def findEntity (g : Graph) (handle : String) : Except Fault EntityId := do
  match ← find g handle with
  | .entity e => .ok e
  | r => .error (.noSuchMember (g.wordOf r))

/-- The unit bound to a handle. -/
def findUnit (g : Graph) (handle : String) : Except Fault UnitId := do
  match ← find g handle with
  | .unit u => .ok u
  | r => .error (.noSuchMember (g.wordOf r))

/-- What a handle stands for that may be missing. -/
def findMaybe (f : String → Except Fault α) : Option String → Except Fault (Option α)
  | none => .ok none
  | some h => some <$> f h

/-! ## Making objects -/

/-- Make an object, and bind the handle to it unless that fails. -/
def make (g : Graph) (handle : String) : NewObject → Graph × Except Fault Unit
  | .entity header form =>
    let (e, g) := g.addEntity { header, form }
    (g.bind handle (.entity e), .ok ())
  | .method header head handles =>
    match handles.mapM (findEntity g) with
    | .error f => (g, .error f)
    | .ok ps => match g.newMethod header head ps with
      | (g, .ok m) => (g.bind handle (.entity m), .ok ())
      | (g, .error f) => (g, .error f)
  | .unit path package imports =>
    ({ g with units := g.units ++ [({ path, package, imports } : UnitObject)] }.bind handle
      (.unit g.units.length), .ok ())
  | .package name =>
    ({ g with packages := g.packages ++ [({ name } : PackageObject)] }.bind handle
      (.package g.packages.length), .ok ())
  | .registry =>
    ({ g with registries := g.registries ++ [({} : RegistryObject)] }.bind handle
      (.registry g.registries.length), .ok ())
  | .sink unit lineEnd =>
    ({ g with sinks := g.sinks ++ [({ unit, lineEnd } : Sink)] }.bind handle
      (.sink g.sinks.length), .ok ())
  | .tag t => (g.bind handle (.tag t), .ok ())

/-! ## Assigning properties -/

/-- Assign a property that only one kind of entity has. -/
def assignForm? (g : Graph) : Form → Assignment → Option (Except Fault Form)
  | .parameter _ v, .type s => some (.ok (.parameter s v))
  | .parameter t _, .varargs b => some (.ok (.parameter t b))
  | .field _ i, .type s => some (.ok (.field s i))
  | .field t _, .initializer s => some (.ok (.field t s))
  | .method h ps, .returnType s => some (.ok (.method { h with returnType := s } ps))
  | .method h ps, .exceptions ss => some (.ok (.method { h with exceptions := ss } ps))
  | .method h ps, .typeParameters s => some (.ok (.method { h with typeParameters := s } ps))
  | .method h ps, .body s => some (.ok (.method { h with body := s } ps))
  | .method h ps, .constructor b => some (.ok (.method { h with constructor := b } ps))
  | .method h _, .parameters hs => some (.method h <$> hs.mapM (findEntity g))
  | .type h fs ms u n, .keyword s => some (.ok (.type { h with keyword := s } fs ms u n))
  | .type h fs ms u n, .superclass s => some (.ok (.type { h with superclass := s } fs ms u n))
  | .type h fs ms u n, .interfaces ss => some (.ok (.type { h with interfaces := ss } fs ms u n))
  | .type h fs ms u n, .typeParameters s =>
    some (.ok (.type { h with typeParameters := s } fs ms u n))
  | .type h fs ms u n, .constants ss => some (.ok (.type { h with constants := ss } fs ms u n))
  | .type h _ ms u n, .fields hs => some ((fun fs => .type h fs ms u n) <$> hs.mapM (findEntity g))
  | .type h fs _ u n, .methods hs => some ((fun ms => .type h fs ms u n) <$> hs.mapM (findEntity g))
  | _, _ => none

/-- Assign a property of an entity. Names, lines and what belongs to one kind of entity can be
assigned at any time, also after freezing. -/
def assignEntity? (g : Graph) (e : EntityId) : Assignment → Option (Except Fault Graph)
  | .name s => some (.ok (g.modifyHeader e fun h => { h with name := s }))
  | .line n => some (.ok (g.modifyHeader e fun h => { h with line := n }))
  | .modifiers ms => some (g.setModifiers e ms)
  | .comment c => some (g.setComment e c)
  | .tags ts => some (g.setTags e ts)
  | .parent h => some (do
      let p ← findMaybe (findEntity g) h
      g.setParent e p)
  | a => (assignForm? g (g.entity e).form a).map fun r =>
    r.map fun form => g.modifyForm e fun _ => form

/-- Assign a property. -/
def assign? (g : Graph) : Ref → Assignment → Option (Except Fault Graph)
  | .entity e, a => assignEntity? g e a
  | .unit u, .path s => some (.ok (g.modifyUnit u fun o => { o with path := s }))
  | .unit u, .package s => some (.ok (g.modifyUnit u fun o => { o with package := s }))
  | .unit u, .imports ss => some (.ok (g.modifyUnit u fun o => { o with imports := ss }))
  | .unit u, .types hs => some (do
      let ts ← hs.mapM (findEntity g)
      pure (g.modifyUnit u fun o => { o with types := ts }))
  | .package p, .name s => some (.ok (g.modifyPackage p fun o => { o with name := s }))
  | .package p, .types hs => some (do
      let ts ← hs.mapM (findEntity g)
      pure (g.modifyPackage p fun o => { o with types := ts }))
  | .sink s, .indentation t => some (.ok (g.modifySink s fun o => { o with unit := t }))
  | .sink s, .lineEnd t => some (.ok (g.modifySink s fun o => { o with lineEnd := t }))
  | .sink s, .depth n => some (.ok (g.modifySink s fun o => { o with depth := n }))
  | _, _ => none

/-! ## Calling operations -/

/-- An operation that changes the graph and has nothing to say. -/
def act? (g : Graph) : Ref → Call → Option (Except Fault Graph)
  | .entity e, .setModifiers ms => some (g.setModifiers e ms)
  | .entity e, .setComment c => some (g.setComment e c)
  | .entity e, .setTags ts => some (g.setTags e ts)
  | .entity e, .setParent h => some (do
      let p ← findMaybe (findEntity g) h
      g.setParent e p)
  | .entity e, .freeze => some (.ok (g.freeze e))
  | .entity e, .setParentUnit h => some (do
      let u ← findMaybe (findUnit g) h
      g.setParentUnit e u)
  | .entity e, .addField h => some (findEntity g h >>= g.addField e)
  | .entity e, .addMethod h => some (findEntity g h >>= g.addMethod e)
  | .entity e, .addParameter h => some (findEntity g h >>= g.addParameter e)
  | .unit u, .addType h => some (findEntity g h >>= g.addType u)
  | .unit u, .freeze => some (.ok (g.freezeUnit u))
  | .sink s, .write t => some (.ok (g.modifySink s (·.write t)))
  | .sink s, .newline => some (.ok (g.modifySink s Sink.newline))
  | .sink s, .indent => some (.ok (g.modifySink s Sink.indent))
  | .sink s, .deindent => some (.ok (g.modifySink s Sink.deindent))
  | _, _ => none

/-- Whether an entity is a type. -/
def isType (g : Graph) (e : EntityId) : Bool :=
  match (g.entity e).form with
  | .type .. => true
  | _ => false

/-- Call an operation. Package names are noted as they are looked up, and registering answers with
the unit. -/
def call (g : Graph) (r : Ref) (c : Call) : Graph × Reply :=
  match r, c with
  | .entity e, .packageName =>
    if isType g e then
      let (name, g) := g.packageName e
      (g, { result := .ok (.text name) })
    else (g, { result := orMissing g r none })
  | .entity e, .qualifiedName =>
    if isType g e then
      let (name, g) := g.qualifiedName e
      (g, { result := .ok (.text name) })
    else (g, { result := orMissing g r none })
  | .registry i, .register h =>
    match findUnit g h with
    | .error f => (g, { result := .error f })
    | .ok u =>
      let (g, warnings) := g.addToRegistry i u
      (g, { result := .ok (.ofRef g (.unit u)), warnings })
  | r, c => match act? g r c with
    | some (.ok g) => (g, { result := .ok .nothing })
    | some (.error f) => (g, { result := .error f })
    | none => match answer? g r c with
      | some result => (g, { result })
      | none => (g, { result := orMissing g r none })

/-! ## Steps -/

/-- Run a step whose object is found under a handle. -/
def withRef (g : Graph) (handle : String) (f : Ref → Graph × Reply) : Graph × Reply :=
  match find g handle with
  | .ok r => f r
  | .error e => (g, { result := .error e })

/-- Bind a handle to a package of a registry. -/
def hold (g : Graph) (handle package : String) (r : RegistryId) : Graph :=
  match (g.registryObject r).packages.lookup package with
  | some p => g.bind handle (.package p)
  | none => g.drop handle

/-- The text that an object shows: a sink its content, a tag its form in a comment, anything else
its description. -/
def shown (g : Graph) : Ref → String
  | .sink s => (g.sink s).text
  | .tag t => t.text
  | r => g.describe r

/-- Run one step. -/
def step (g : Graph) : Step → Graph × Reply
  | .new handle object =>
    let (g, r) := make g handle object
    (g, { result := r.map fun _ => .nothing })
  | .get handle p => withRef g handle fun r => (g, { result := orMissing g r (property? g r p) })
  | .set handle a => withRef g handle fun r =>
    match assign? g r a with
    | some (.ok g) => (g, { result := .ok .nothing })
    | some (.error f) => (g, { result := .error f })
    | none => (g, { result := orMissing g r none })
  | .call handle c => withRef g handle fun r => call g r c
  | .render handle w unit lineEnd depth => withRef g handle fun r =>
    let answer? := (writer? g r w).map fun w => .text (rendered w unit lineEnd depth)
    (g, { result := orMissing g r answer? })
  | .drop handle => (g.drop handle, { result := .ok .nothing })
  | .hold handle registry package => withRef g registry fun
    | .registry r => (hold g handle package r, { result := .ok .nothing })
    | r => (g, { result := orMissing g r none })
  | .sort handles => (g, { result := sorted g handles })
  | .less a b => (g, { result := .bool <$> isLess g a b })
  | .equal a b => (g, { result := .bool <$> isEqual g a b })
  | .describe handle => withRef g handle fun r => (g, { result := .ok (.text (g.describe r)) })
  | .show handle => withRef g handle fun r => (g, { result := .ok (.text (shown g r)) })
  | .isAccessModifier word => (g, { result := .ok (.bool (JavaOutline.isAccessModifier word)) })

/-- Run steps one after the other, also behind a fault. -/
def run : Graph → List Step → Graph × List Reply
  | g, [] => (g, [])
  | g, s :: ss =>
    let (g, reply) := step g s
    let (g, replies) := run g ss
    (g, reply :: replies)

end JavaOutline.Session
