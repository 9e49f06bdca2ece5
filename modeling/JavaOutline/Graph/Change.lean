import JavaOutline.Graph.Live

/-! # Changing objects

Setters and owners refuse to change what is frozen: the owner is asked first, then the member.
Freezing an object freezes everything it owns. A change that fails leaves no trace, because its
result is the fault alone; only the making of a method with parameters consists of several
changes. -/

namespace JavaOutline.Graph

/-! ## Frozen objects -/

/-- Refuse to set a property of a frozen entity. -/
def checkMutable (g : Graph) (e : EntityId) (property : String) : Except Fault Unit :=
  let o := g.entity e
  if o.frozen then .error (.frozen o.header.name property) else .ok ()

/-- An entity with all that it owns: members and their members. Where a list has been assigned that
has members of another kind, what lies further down is left out. -/
def descendants (g : Graph) (e : EntityId) : List EntityId :=
  e :: (g.entity e).form.members.flatMap fun m => m :: (g.entity m).form.members

/-- Freeze an entity and all that it owns. -/
def freeze (g : Graph) (e : EntityId) : Graph :=
  (g.descendants e).foldl (fun g e => g.modifyEntity e fun o => { o with frozen := true }) g

/-- Freeze a unit and all that it owns. -/
def freezeUnit (g : Graph) (u : UnitId) : Graph :=
  ((g.unit u).types.foldl freeze g).modifyUnit u fun o => { o with frozen := true }

/-! ## Setters -/

def setModifiers (g : Graph) (e : EntityId) (ms : List String) : Except Fault Graph := do
  g.checkMutable e "modifiers"
  pure (g.modifyHeader e fun h => { h with modifiers := ms })

def setComment (g : Graph) (e : EntityId) (c : Option String) : Except Fault Graph := do
  g.checkMutable e "comment"
  pure (g.modifyHeader e fun h => { h with comment := c })

def setTags (g : Graph) (e : EntityId) (ts : List Tag) : Except Fault Graph := do
  g.checkMutable e "tags"
  pure (g.modifyHeader e fun h => { h with tags := ts })

def setParent (g : Graph) (e : EntityId) (p : Option EntityId) : Except Fault Graph := do
  g.checkMutable e "parent_declaration"
  pure (g.modifyEntity e fun o => { o with parent := p })

/-- Let a type refer to a unit and note the name of the unit's package. -/
def setParentUnit (g : Graph) (e : EntityId) (u : Option UnitId) : Except Fault Graph :=
  match (g.entity e).form with
  | .type .. => do
    g.checkMutable e "parent_source"
    let name := match u with
      | some u => (g.unit u).packageName
      | none => ""
    pure (g.modifyForm e fun
      | .type head fs ms _ _ => .type head fs ms u name
      | f => f)
  | f => .error (.noSuchMember f.word)

/-! ## Owners -/

/-- Make an entity the parent of another and list that among its members. -/
def adopt (g : Graph) (owner e : EntityId) (append : Form → Form) : Except Fault Graph := do
  let g ← g.setParent e (some owner)
  pure (g.modifyForm owner append)

def addParameter (g : Graph) (m p : EntityId) : Except Fault Graph :=
  match (g.entity m).form with
  | .method .. => do
    g.checkMutable m "parameters"
    match (g.entity p).form with
    | .parameter .. => g.adopt m p fun
      | .method head ps => .method head (ps ++ [p])
      | f => f
    | f => .error (.noSuchMember f.word)
  | f => .error (.noSuchMember f.word)

def addField (g : Graph) (t f : EntityId) : Except Fault Graph :=
  match (g.entity t).form with
  | .type .. => do
    g.checkMutable t "fields"
    match (g.entity f).form with
    | .field .. => g.adopt t f fun
      | .type head fs ms u n => .type head (fs ++ [f]) ms u n
      | o => o
    | o => .error (.noSuchMember o.word)
  | o => .error (.noSuchMember o.word)

def addMethod (g : Graph) (t m : EntityId) : Except Fault Graph :=
  match (g.entity t).form with
  | .type .. => do
    g.checkMutable t "methods"
    match (g.entity m).form with
    | .method .. => g.adopt t m fun
      | .type head fs ms u n => .type head fs (ms ++ [m]) u n
      | o => o
    | o => .error (.noSuchMember o.word)
  | o => .error (.noSuchMember o.word)

/-- Put a type into a unit. -/
def addType (g : Graph) (u : UnitId) (t : EntityId) : Except Fault Graph := do
  let o := g.unit u
  if o.frozen then
    let name := (o.path.filter (!·.isEmpty)).getD "<source>"
    .error (.frozen name "classes")
  else
    let g ← g.setParentUnit t (some u)
    pure (g.modifyUnit u fun o => { o with types := o.types ++ [t] })

/-- Make a method with parameters. They are added one by one, so a fault comes with the graph in
which the parameters before it already refer to the method that is not going to be held. -/
def newMethod (g : Graph) (h : Header) (head : MethodHead) (ps : List EntityId) :
    Graph × Except Fault EntityId :=
  let (m, g) := g.addEntity { header := h, form := .method head [] }
  addAll m ps g
where
  /-- Add the parameters from left to right. -/
  addAll (m : EntityId) : List EntityId → Graph → Graph × Except Fault EntityId
    | [], g => (g, .ok m)
    | p :: ps, g => match g.addParameter m p with
      | .error f => (g, .error f)
      | .ok g => addAll m ps g

/-! ## Package names -/

/-- Look up the name of a type's package. While the unit is live its name is noted anew, and the
note is what counts once the unit is gone. -/
def packageName (g : Graph) (t : EntityId) : String × Graph :=
  match (g.entity t).form with
  | .type _ _ _ _ noted =>
    match g.parentUnit? t with
    | some u =>
      let name := (g.unit u).packageName
      (name, g.modifyForm t fun
        | .type head fs ms u _ => .type head fs ms u name
        | f => f)
    | none => (noted, g)
  | _ => ("", g)

/-- The name of a type inside its package. -/
def qualifiedName (g : Graph) (t : EntityId) : String × Graph :=
  let (package, g) := g.packageName t
  (qualify package (g.entity t).header.name, g)

/-- The qualified names of types, looked up in order. -/
def qualifiedNames : List EntityId → Graph → List (String × EntityId) × Graph
  | [], g => ([], g)
  | t :: ts, g =>
    let (name, g) := g.qualifiedName t
    let (rest, g) := qualifiedNames ts g
    ((name, t) :: rest, g)

/-! ## Registries -/

/-- The package of a registry under a name. It is made if there is none. -/
def openPackage (g : Graph) (r : RegistryId) (name : String) : PackageId × Graph :=
  match (g.registryObject r).packages.lookup name with
  | some p => (p, g)
  | none =>
    let p := g.packages.length
    (p, { g with packages := g.packages ++ [({ name } : PackageObject)] }.modifyRegistry r fun o =>
      { o with packages := o.packages ++ [(name, p)] })

/-- Take up a type in a registry and one of its packages. -/
def fileType (g : Graph) (r : RegistryId) (p : PackageId) (name : String) (t : EntityId) : Graph :=
  (g.modifyRegistry r fun o => { o with types := o.types ++ [(name, t)] }).modifyPackage p fun o =>
    { o with types := o.types ++ [t] }

/-- Take up types, each under its qualified name; the names that were taken already are returned
in order. -/
def fileTypes (r : RegistryId) (p : PackageId) :
    List (String × EntityId) → Graph → Graph × List String
  | [], g => (g, [])
  | (name, t) :: ts, g =>
    if ((g.registryObject r).types.lookup name).isSome then
      let (g, duplicates) := fileTypes r p ts g
      (g, name :: duplicates)
    else fileTypes r p ts (g.fileType r p name t)

/-- Take up a unit of a package with its types under their qualified names. -/
def takeUp (g : Graph) (r : RegistryId) (u : UnitId) (package : String)
    (types : List (String × EntityId)) : Graph × List String :=
  let g := g.modifyRegistry r fun o => { o with units := o.units ++ [u] }
  let (p, g) := g.openPackage r package
  fileTypes r p types g

/-- Register a unit, which is frozen by it. The warnings say which of its types are passed over. -/
def addToRegistry (g : Graph) (r : RegistryId) (u : UnitId) : Graph × List String :=
  let g := g.freezeUnit u
  let o := g.unit u
  let (types, g) := qualifiedNames o.types g
  let (g, duplicates) := g.takeUp r u o.packageName types
  (g, duplicates.map (duplicateWarning · o.path))

end JavaOutline.Graph
