import JavaOutline.Decl.Render
import JavaOutline.Registry

/-! # Graphs of live declarations

Declarations under construction have identity: they are shared, changed in place and refer back
to what encloses them. A graph holds all objects ever made, each under a number that is never used
again, and the handles by which a user holds some of them.

Ownership runs downwards: a registry owns units and packages, these own types, a type its fields
and methods, a method its parameters. References upwards do not own; how they read is the subject of
`JavaOutline.Graph.Live`. -/

namespace JavaOutline

abbrev EntityId := Nat
abbrev UnitId := Nat
abbrev PackageId := Nat
abbrev RegistryId := Nat
abbrev SinkId := Nat

/-- What kind of declaration an entity is, with what only that kind has. -/
inductive Form where
  /-- A declaration of no particular kind. -/
  | plain
  | parameter (type : String) (varargs : Bool)
  | field (type : String) (initializer : Option String)
  | method (head : MethodHead) (parameters : List EntityId)
  /-- A type refers back to its unit; the name of the unit's package is kept beside it, for when
  the unit is gone. -/
  | type (head : TypeHead) (fields methods : List EntityId) (unit : Option UnitId)
      (packageName : String)
deriving DecidableEq, Repr, Inhabited

namespace Form

/-- The entities that an entity of this form owns. -/
def members : Form → List EntityId
  | .method _ ps => ps
  | .type _ fs ms _ _ => fs ++ ms
  | _ => []

/-- The word for the kind of declaration. -/
def word : Form → String
  | .plain => "AbstractJavaEntity"
  | .parameter .. => "JavaParameter"
  | .field .. => "JavaField"
  | .method .. => "JavaMethod"
  | .type .. => "JavaClass"

end Form

/-- A declaration as an object. -/
structure Entity where
  header : Header
  form : Form
  /-- The declaration that encloses it, not owned. -/
  parent : Option EntityId := none
  /-- Frozen entities can no longer be changed through their setters. -/
  frozen : Bool := false
deriving DecidableEq, Repr, Inhabited

/-- A compilation unit as an object. -/
structure UnitObject where
  path : Option String := none
  package : Option String := none
  imports : List String := []
  types : List EntityId := []
  frozen : Bool := false
deriving DecidableEq, Repr, Inhabited

/-- The name of the unit's package, empty for the unnamed one. -/
def UnitObject.packageName (u : UnitObject) : String := u.package.getD ""

/-- A package as an object. -/
structure PackageObject where
  name : String
  types : List EntityId := []
deriving DecidableEq, Repr, Inhabited

/-- A registry as an object. It owns its packages, each under the name that it was opened with. -/
structure RegistryObject where
  units : List UnitId := []
  types : List (String × EntityId) := []
  packages : List (String × PackageId) := []
deriving DecidableEq, Repr, Inhabited

/-- What a handle can hold. -/
inductive Ref where
  | entity (e : EntityId)
  | unit (u : UnitId)
  | package (p : PackageId)
  | registry (r : RegistryId)
  | sink (s : SinkId)
  | tag (t : Tag)
deriving DecidableEq, Repr, Inhabited

/-- All objects, and the handles in the order they were first bound. -/
structure Graph where
  entities : List Entity := []
  units : List UnitObject := []
  packages : List PackageObject := []
  registries : List RegistryObject := []
  sinks : List Sink := []
  handles : List (String × Ref) := []
deriving Repr, Inhabited

/-- What a step that fails has run into. -/
inductive Fault where
  /-- A setter was used on a frozen object. -/
  | frozen (name property : String)
  /-- The source of an entity was asked for, but the chain of its parents ends at this one. -/
  | detached (name : String)
  /-- The chain of parents never ends. -/
  | endless
  /-- Two objects that have no order. -/
  | unordered (left right : String)
  /-- No object is bound to the handle. -/
  | unbound (handle : String)
  /-- Objects of this kind have no such property or method. -/
  | noSuchMember (kind : String)
deriving DecidableEq, Repr, Inhabited

namespace Fault

/-- The fault in words; the last two are about the step and not about the objects. -/
def message : Fault → String
  | .frozen name property => "Cannot set '" ++ property ++ "' on frozen entity '" ++ name ++ "'"
  | .detached name =>
    "Entity '" ++ name ++ "' has no parent declaration; populate it before calling get_source()"
  | .endless => "maximum recursion depth exceeded"
  | .unordered l r => "'<' not supported between instances of '" ++ l ++ "' and '" ++ r ++ "'"
  | .unbound handle => Text.quoted handle
  | .noSuchMember kind => "'" ++ kind ++ "' object has no such attribute"

end Fault

namespace Graph

/-! ## Reading and writing objects -/

def entity (g : Graph) (e : EntityId) : Entity := g.entities.getD e default

def unit (g : Graph) (u : UnitId) : UnitObject := g.units.getD u default

def package (g : Graph) (p : PackageId) : PackageObject := g.packages.getD p default

def registryObject (g : Graph) (r : RegistryId) : RegistryObject := g.registries.getD r default

/-- A registry with what its packages list at the moment. -/
def registry (g : Graph) (r : RegistryId) : Registry UnitId EntityId :=
  let o := g.registryObject r
  { units := o.units, types := o.types
    packages := o.packages.map fun p => (p.1, (g.package p.2).types) }

def sink (g : Graph) (s : SinkId) : Sink := g.sinks.getD s default

def modifyEntity (g : Graph) (e : EntityId) (f : Entity → Entity) : Graph :=
  { g with entities := g.entities.modify e f }

def modifyUnit (g : Graph) (u : UnitId) (f : UnitObject → UnitObject) : Graph :=
  { g with units := g.units.modify u f }

def modifyPackage (g : Graph) (p : PackageId) (f : PackageObject → PackageObject) : Graph :=
  { g with packages := g.packages.modify p f }

def modifyRegistry (g : Graph) (r : RegistryId) (f : RegistryObject → RegistryObject) : Graph :=
  { g with registries := g.registries.modify r f }

def modifySink (g : Graph) (s : SinkId) (f : Sink → Sink) : Graph :=
  { g with sinks := g.sinks.modify s f }

def modifyHeader (g : Graph) (e : EntityId) (f : Header → Header) : Graph :=
  g.modifyEntity e fun o => { o with header := f o.header }

def modifyForm (g : Graph) (e : EntityId) (f : Form → Form) : Graph :=
  g.modifyEntity e fun o => { o with form := f o.form }

/-- Make an entity; it gets the next free number. -/
def addEntity (g : Graph) (o : Entity) : EntityId × Graph :=
  (g.entities.length, { g with entities := g.entities ++ [o] })

/-! ## Handles -/

/-- The object bound to a handle. -/
def bound? (g : Graph) (handle : String) : Option Ref := g.handles.lookup handle

/-- Bind a handle, in place of what it held before. -/
def bind (g : Graph) (handle : String) (r : Ref) : Graph :=
  { g with handles :=
      if g.handles.any (·.1 == handle) then
        g.handles.map fun p => if p.1 = handle then (handle, r) else p
      else g.handles ++ [(handle, r)] }

/-- Forget a handle. -/
def drop (g : Graph) (handle : String) : Graph :=
  { g with handles := g.handles.filter (·.1 != handle) }

/-- The first handle that holds an object. -/
def handleOf? (g : Graph) (r : Ref) : Option String := (g.handles.find? (·.2 == r)).map (·.1)

/-- Whether some handle holds an object. -/
def isHeld (g : Graph) (r : Ref) : Bool := g.handles.any (·.2 == r)

end Graph

end JavaOutline
