import JavaOutline.Graph.Value

/-! # Steps of a session

A session works on a graph of live objects step by step: it makes objects under handles, reads and
assigns their properties, calls their operations, writes them and lets go of them. Every step has
an answer or a fault. -/

namespace JavaOutline.Session

open JavaOutline

/-- Objects that a step can make. Members and parents are given by the handles they are bound
to. -/
inductive NewObject where
  | entity (header : Header) (form : Form)
  | method (header : Header) (head : MethodHead) (parameters : List String)
  | unit (path package : Option String) (imports : List String)
  | package (name : String)
  | registry
  | sink (unit lineEnd : String)
  | tag (t : Tag)
deriving Repr, Inhabited

/-- Properties that can be read. -/
inductive Property where
  | name | line | modifiers | comment | tags | parent | frozen
  /-- Whether a modifier is present. -/
  | has (modifier : String)
  | type | varargs | initializer
  | returnType | exceptions | typeParameters | body | constructor | parameters
  | keyword | superclass | interfaces | constants | fields | methods
  | isInterface | isEnum | parentUnit
  | path | package | imports | types
  | indentation | lineEnd | depth
  | value | settings
deriving DecidableEq, Repr, Inhabited

/-- Assignments to a property. Lists of members are assigned as they are: nothing is adopted, and
nothing is said of the kinds of the members. Freezing and liveness follow owners and members for two
steps, which is all there is if fields, methods, parameters and types are assigned what their names
say. -/
inductive Assignment where
  | name (s : String)
  | line (n : Int)
  | modifiers (ms : List String)
  | comment (c : Option String)
  | tags (ts : List Tag)
  | parent (p : Option String)
  | type (s : String)
  | varargs (b : Bool)
  | initializer (s : Option String)
  | returnType (s : Option String)
  | exceptions (ss : List String)
  | typeParameters (s : Option String)
  | body (s : Option String)
  | constructor (b : Bool)
  | parameters (ps : List String)
  | keyword (s : String)
  | superclass (s : Option String)
  | interfaces (ss : List String)
  | constants (ss : List String)
  | fields (fs : List String)
  | methods (ms : List String)
  | path (s : Option String)
  | package (s : Option String)
  | imports (ss : List String)
  | types (ts : List String)
  | indentation (s : String)
  | lineEnd (s : String)
  | depth (n : Nat)
deriving Repr, Inhabited

/-- Operations of objects. -/
inductive Call where
  | setModifiers (ms : List String)
  | setComment (c : Option String)
  | setTags (ts : List Tag)
  | setParent (p : Option String)
  | freeze
  | tagsNamed (name : String)
  | tagNamed (name : String)
  | namedParameter (tag key : String)
  | docBlock (unit : String)
  | block (unit : String)
  | source
  | memberSource
  | setParentUnit (u : Option String)
  | packageName
  | qualifiedName
  | addField (f : String)
  | addMethod (m : String)
  | fieldNamed (name : String)
  | methodsNamed (name : String)
  | constructors
  | addParameter (p : String)
  | parameterNamed (name : String)
  | signature
  | addType (t : String)
  | types
  | register (u : String)
  | typeNamed (name : String)
  | hasType (name : String)
  | units
  | packageNamed (name : String)
  | packages
  | write (text : String)
  | newline
  | indent
  | deindent
  | text
  /-- The words of a tag's value. -/
  | words
  | parameterMap
  | parameterUnder (key : String)
deriving Repr, Inhabited

/-- Ways to write an object into a sink. -/
inductive Writer where
  | doc
  | code
  | declaration
  | accessModifiers
  | otherModifiers
  | modifiers
deriving DecidableEq, Repr, Inhabited

/-- What can be compared: bound objects, tags, texts and numbers. -/
inductive Operand where
  | object (handle : String)
  | tag (t : Tag)
  | text (s : String)
  | int (n : Int)
  | nothing
deriving Repr, Inhabited

/-- One step. -/
inductive Step where
  | new (handle : String) (object : NewObject)
  | get (handle : String) (property : Property)
  | set (handle : String) (assignment : Assignment)
  | call (handle : String) (call : Call)
  /-- Write an object into a fresh sink at some depth. -/
  | render (handle : String) (writer : Writer) (unit lineEnd : String) (depth : Nat)
  | drop (handle : String)
  /-- Bind a handle to the package of a registry; if there is none, the handle is let go of. All
  other objects are made with a handle, which can be kept. -/
  | hold (handle registry package : String)
  | sort (handles : List String)
  | less (a b : Operand)
  | equal (a b : Operand)
  /-- The one-line description of an object. -/
  | describe (handle : String)
  /-- The text of an object: what a sink holds, what a tag looks like. -/
  | show (handle : String)
  | isAccessModifier (word : String)
deriving Repr, Inhabited

/-- Answers. An object is named by its handle, or described if it has none. -/
inductive Answer where
  | nothing
  | bool (b : Bool)
  | int (n : Int)
  | text (s : String)
  | tag (t : Tag)
  | handle (id : String)
  | described (text : String)
  | list (xs : List Answer)
  | table (kvs : List (String × String))
deriving Repr, Inhabited

/-- What a step leaves behind: its answer or fault, and the warnings on the way. -/
structure Reply where
  result : Except Fault Answer
  warnings : List String := []
deriving Repr, Inhabited

end JavaOutline.Session
