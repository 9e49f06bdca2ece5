import JavaOutline.Graph.Basic

/-! # Live objects and parents

An object is live while a handle or a live owner holds it. A reference upwards reads as missing
once its object is no longer live, and nothing brings such an object back. The source of an entity
is found by following parents up to a type that stands in a unit. -/

namespace JavaOutline.Graph

/-- A unit is held by a handle or by a registry with a handle. -/
def unitIsLive (g : Graph) (u : UnitId) : Bool :=
  g.isHeld (.unit u) ||
    (List.range g.registries.length).any fun r =>
      g.isHeld (.registry r) && (g.registry r).units.contains u

/-- Whether a registry lists an entity. -/
def registryLists (r : Registry UnitId EntityId) (e : EntityId) : Bool :=
  r.types.any (·.2 == e) || r.packages.any (·.2.contains e)

/-- Whether an entity is held by something that is not an entity: a handle, a live unit, a package
with a handle, or a registry with one. -/
def isRoot (g : Graph) (e : EntityId) : Bool :=
  g.isHeld (.entity e) ||
    ((List.range g.units.length).any fun u => (g.unit u).types.contains e && g.unitIsLive u) ||
    ((List.range g.packages.length).any fun p =>
      (g.package p).types.contains e && g.isHeld (.package p)) ||
    ((List.range g.registries.length).any fun r =>
      registryLists (g.registry r) e && g.isHeld (.registry r))

/-- The entities that list an entity as a member. -/
def ownersOf (g : Graph) (e : EntityId) : List EntityId :=
  (List.range g.entities.length).filter fun o => (g.entity o).form.members.contains e

/-- Whether an entity is a root or has a live owner at most `n` steps up. -/
def isLiveWithin (g : Graph) : Nat → EntityId → Bool
  | 0, e => g.isRoot e
  | n + 1, e => g.isRoot e || (g.ownersOf e).any (g.isLiveWithin n)

/-- Whether an entity is live. Parameters belong to methods and these to types, so two steps up
there is no further owner. Assigned lists can have members of any kind; then owners more than two
steps up are not looked at. -/
def isLive (g : Graph) (e : EntityId) : Bool := g.isLiveWithin 2 e

/-- The declaration that encloses an entity, if it is set and live. -/
def parent? (g : Graph) (e : EntityId) : Option EntityId := (g.entity e).parent.filter g.isLive

/-- The unit a type refers to, if it is set and live. -/
def parentUnit? (g : Graph) (e : EntityId) : Option UnitId :=
  match (g.entity e).form with
  | .type _ _ _ u _ => u.filter g.unitIsLive
  | _ => none

/-- The unit that a type stands in directly. -/
def ownUnit (g : Graph) (e : EntityId) : Except Fault UnitId :=
  match g.parentUnit? e with
  | some u => .ok u
  | none => .error (.detached (g.entity e).header.name)

/-- The source of an entity, following at most `n` parents. A type without a parent stands in its
own unit; otherwise the source is what the parent passes on to its members, and a type passes on
its own unit. -/
def sourceWithin (g : Graph) : Nat → EntityId → Except Fault UnitId
  | 0, _ => .error .endless
  | n + 1, e =>
    match g.parent? e, (g.entity e).form with
    | none, .type .. => g.ownUnit e
    | none, _ => .error (.detached (g.entity e).header.name)
    | some p, _ =>
      match (g.entity p).form with
      | .type .. => g.ownUnit p
      | _ => g.sourceWithin n p

/-- The source of an entity. -/
def source (g : Graph) (e : EntityId) : Except Fault UnitId :=
  g.sourceWithin (g.entities.length + 1) e

/-- The source that an entity passes on to its members. -/
def memberSource (g : Graph) (e : EntityId) : Except Fault UnitId :=
  match (g.entity e).form with
  | .type .. => g.ownUnit e
  | _ => g.source e

end JavaOutline.Graph
