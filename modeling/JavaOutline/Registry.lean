/-! # Registries

A registry takes up units one by one and indexes their types by qualified name. The first type
under a name stays; a later one is passed over and reported. Each type that is taken up is listed
by the package of the unit it came with.

A registry is over any notion of unit and type, so it serves live objects and values alike. -/

namespace JavaOutline

/-- The units in order of registration, the types by qualified name and the packages with their
types, both in order of first occurrence. -/
structure Registry (υ τ : Type) where
  units : List υ := []
  types : List (String × τ) := []
  packages : List (String × List τ) := []
deriving Repr, Inhabited

namespace Registry

variable {υ τ : Type}

/-- The type registered under a qualified name. -/
def type? (r : Registry υ τ) (name : String) : Option τ := r.types.lookup name

/-- The types of a package that some unit belongs to. -/
def package? (r : Registry υ τ) (name : String) : Option (List τ) := r.packages.lookup name

/-- Make sure that a package is listed. -/
def openPackage (r : Registry υ τ) (name : String) : Registry υ τ :=
  if (r.package? name).isSome then r else { r with packages := r.packages ++ [(name, [])] }

/-- Append to the value under a key. -/
def appendUnder (name : String) (t : τ) (ps : List (String × List τ)) : List (String × List τ) :=
  ps.map fun p => if p.1 = name then (p.1, p.2 ++ [t]) else p

/-- Take up types of a package, each under its qualified name; the names that were taken already
are returned in order. -/
def addTypes (package : String) : List (String × τ) → Registry υ τ → Registry υ τ × List String
  | [], r => (r, [])
  | (name, t) :: ts, r =>
    if (r.type? name).isSome then
      let (r, duplicates) := addTypes package ts r
      (r, name :: duplicates)
    else
      addTypes package ts
        { r with
          types := r.types ++ [(name, t)]
          packages := appendUnder package t r.packages }

/-- Take up a unit of a package with its types under their qualified names. -/
def register (r : Registry υ τ) (u : υ) (package : String) (types : List (String × τ)) :
    Registry υ τ × List String :=
  addTypes package types (openPackage { r with units := r.units ++ [u] } package)

end Registry

/-- The warning about a type whose name is taken already. -/
def duplicateWarning (name : String) (path : Option String) : String :=
  "Duplicate class " ++ name ++ " in " ++ path.getD "None" ++ "; keeping the first definition"

end JavaOutline
