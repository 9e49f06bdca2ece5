import JavaOutline.Session.Step

/-! # Reading objects

Answers about a graph as it is: properties, look-ups by name, texts and comparisons. None of them
changes the graph. -/

namespace JavaOutline.Session

open JavaOutline

/-! ## Answers -/

namespace Answer

def ofOption (f : α → Answer) : Option α → Answer
  | none => .nothing
  | some a => f a

def texts (ss : List String) : Answer := .list (ss.map .text)

def tags (ts : List Tag) : Answer := .list (ts.map .tag)

/-- An object as an answer. -/
def ofRef (g : Graph) (r : Ref) : Answer :=
  match r with
  | .tag t => .tag t
  | r => match g.handleOf? r with
    | some h => .handle h
    | none => .described (g.describe r)

def entities (g : Graph) (es : List EntityId) : Answer :=
  .list (es.map fun e => ofRef g (.entity e))

end Answer

/-- The object bound to a handle. -/
def find (g : Graph) (handle : String) : Except Fault Ref :=
  match g.bound? handle with
  | some r => .ok r
  | none => .error (.unbound handle)

/-- The answer of a question that makes sense for an object, or the fault that it does not. -/
def orMissing (g : Graph) (r : Ref) : Option Answer → Except Fault Answer
  | some a => .ok a
  | none => .error (.noSuchMember (g.wordOf r))

/-! ## Properties -/

/-- Properties that only one kind of entity has. -/
def formProperty? (g : Graph) (e : EntityId) : Form → Property → Option Answer
  | .parameter type _, .type => some (.text type)
  | .parameter _ varargs, .varargs => some (.bool varargs)
  | .field type _, .type => some (.text type)
  | .field _ initializer, .initializer => some (.ofOption .text initializer)
  | .method head _, .returnType => some (.ofOption .text head.returnType)
  | .method head _, .exceptions => some (.texts head.exceptions)
  | .method head _, .typeParameters => some (.ofOption .text head.typeParameters)
  | .method head _, .body => some (.ofOption .text head.body)
  | .method head _, .constructor => some (.bool head.constructor)
  | .method _ ps, .parameters => some (.entities g ps)
  | .type head .., .keyword => some (.text head.keyword)
  | .type head .., .superclass => some (.ofOption .text head.superclass)
  | .type head .., .interfaces => some (.texts head.interfaces)
  | .type head .., .typeParameters => some (.ofOption .text head.typeParameters)
  | .type head .., .constants => some (.texts head.constants)
  | .type _ fs _ _ _, .fields => some (.entities g fs)
  | .type _ _ ms _ _, .methods => some (.entities g ms)
  | .type head .., .isInterface => some (.bool head.isInterface)
  | .type head .., .isEnum => some (.bool head.isEnum)
  | .type .., .parentUnit => some (.ofOption (fun u => .ofRef g (.unit u)) (g.parentUnit? e))
  | _, _ => none

/-- Properties of entities. -/
def entityProperty? (g : Graph) (e : EntityId) (p : Property) : Option Answer :=
  let o := g.entity e
  match p with
  | .name => some (.text o.header.name)
  | .line => some (.int o.header.line)
  | .modifiers => some (.texts o.header.modifiers)
  | .comment => some (.ofOption .text o.header.comment)
  | .tags => some (.tags o.header.tags)
  | .parent => some (.ofOption (fun p => .ofRef g (.entity p)) (g.parent? e))
  | .frozen => some (.bool o.frozen)
  | .has m => some (.bool (o.header.hasModifier m))
  | p => formProperty? g e o.form p

/-- Read a property. -/
def property? (g : Graph) : Ref → Property → Option Answer
  | .entity e, p => entityProperty? g e p
  | .unit u, .path => some (.ofOption .text (g.unit u).path)
  | .unit u, .package => some (.ofOption .text (g.unit u).package)
  | .unit u, .imports => some (.texts (g.unit u).imports)
  | .unit u, .types => some (.entities g (g.unit u).types)
  | .package p, .name => some (.text (g.package p).name)
  | .package p, .types => some (.entities g (g.package p).types)
  | .registry _, .settings => some .nothing
  | .sink s, .indentation => some (.text (g.sink s).unit)
  | .sink s, .lineEnd => some (.text (g.sink s).lineEnd)
  | .sink s, .depth => some (.int (g.sink s).depth)
  | .tag t, .name => some (.text t.name)
  | .tag t, .value => some (.text t.value)
  | .tag t, .line => some (.int t.line)
  | _, _ => none

/-! ## Look-ups and texts -/

def nameOf (g : Graph) (e : EntityId) : String := (g.entity e).header.name

def isConstructor (g : Graph) (e : EntityId) : Bool :=
  match (g.entity e).form with
  | .method head _ => head.constructor
  | _ => false

/-- The answer of an operation on an entity that changes nothing. -/
def entityAnswer? (g : Graph) (e : EntityId) (c : Call) : Option (Except Fault Answer) :=
  let o := g.entity e
  match o.form, c with
  | _, .tagsNamed n => some (.ok (.tags (o.header.tagsNamed n)))
  | _, .tagNamed n => some (.ok (.ofOption .tag (o.header.tagNamed? n)))
  | _, .namedParameter t k => some (.ok (.ofOption .text (o.header.namedParameter? t k)))
  | _, .docBlock unit => some (.ok (.text (o.header.docBlock unit)))
  | _, .source => some ((g.source e).map fun u => .ofRef g (.unit u))
  | _, .memberSource => some ((g.memberSource e).map fun u => .ofRef g (.unit u))
  | .parameter .., .block _ => none
  | _, .block unit => (g.writeEntity? e).map fun w => .ok (.text (w { unit }).text)
  | .method _ ps, .parameterNamed n =>
    some (.ok (.ofOption (fun p => .ofRef g (.entity p)) (ps.find? fun p => nameOf g p == n)))
  | .method .., .signature => (g.method? e).map fun m => .ok (.text m.signature)
  | .type _ fs _ _ _, .fieldNamed n =>
    some (.ok (.ofOption (fun f => .ofRef g (.entity f)) (fs.find? fun f => nameOf g f == n)))
  | .type _ _ ms _ _, .methodsNamed n =>
    some (.ok (.entities g (ms.filter fun m => nameOf g m == n)))
  | .type _ _ ms _ _, .constructors => some (.ok (.entities g (ms.filter (isConstructor g))))
  | _, _ => none

/-- The answer of an operation that changes nothing. -/
def answer? (g : Graph) : Ref → Call → Option (Except Fault Answer)
  | .entity e, c => entityAnswer? g e c
  | .unit u, .types => some (.ok (.entities g (g.unit u).types))
  | .unit u, .packageName => some (.ok (.text (g.unit u).packageName))
  | .unit u, .block unit => some (.ok (.text ((g.unitValue u).block unit)))
  | .package p, .types => some (.ok (.entities g (g.package p).types))
  | .registry r, .typeNamed n =>
    some (.ok (.ofOption (fun e => .ofRef g (.entity e)) ((g.registry r).type? n)))
  | .registry r, .hasType n => some (.ok (.bool ((g.registry r).type? n).isSome))
  | .registry r, .types => some (.ok (.entities g ((g.registry r).types.map (·.2))))
  | .registry r, .units => some (.ok (.list ((g.registry r).units.map fun u => .ofRef g (.unit u))))
  | .registry r, .packageNamed n =>
    some (.ok (.ofOption (fun p => .ofRef g (.package p))
      ((g.registryObject r).packages.lookup n)))
  | .registry r, .packages =>
    some (.ok (.list ((g.registryObject r).packages.map fun p => .ofRef g (.package p.2))))
  | .sink s, .text => some (.ok (.text (g.sink s).text))
  | .tag t, .words => some (.ok (.texts t.words))
  | .tag t, .parameterMap => some (.ok (.table t.namedParameters))
  | .tag t, .parameterUnder k => some (.ok (.ofOption .text (t.namedParameter? k)))
  | _, _ => none

/-- How an object is written into a sink. -/
def writer? (g : Graph) : Ref → Writer → Option (Sink → Sink)
  | .entity e, .doc => some (g.entity e).header.writeDoc
  | .entity e, .accessModifiers => some (g.entity e).header.writeAccessModifiers
  | .entity e, .otherModifiers => some (g.entity e).header.writeOtherModifiers
  | .entity e, .modifiers => some (g.entity e).header.writeModifiers
  | .entity e, .code => g.writeEntity? e
  | .entity e, .declaration => (g.method? e).map Method.writeDeclaration
  | .unit u, .code => some (g.unitValue u).write
  | _, _ => none

/-- The text that a writer leaves in a fresh sink. -/
def rendered (w : Sink → Sink) (unit lineEnd : String) (depth : Nat) : String :=
  (w { unit, lineEnd, depth }).text

/-! ## Order and equality -/

/-- What an operand stands for. -/
inductive Comparand where
  | ref (r : Ref)
  | text (s : String)
  | int (n : Int)
  | nothing
deriving DecidableEq, Repr, Inhabited

def comparand (g : Graph) : Operand → Except Fault Comparand
  | .object h => .ref <$> find g h
  | .tag t => .ok (.ref (.tag t))
  | .text s => .ok (.text s)
  | .int n => .ok (.int n)
  | .nothing => .ok .nothing

/-- The word for the kind of a comparand. -/
def Comparand.word (g : Graph) : Comparand → String
  | .ref r => g.wordOf r
  | .text _ => "str"
  | .int _ => "int"
  | .nothing => "NoneType"

/-- Entities are ordered by name, texts and numbers as usual; nothing else has an order. -/
def less (g : Graph) : Comparand → Comparand → Except Fault Bool
  | .ref (.entity a), .ref (.entity b) => .ok (decide (nameOf g a < nameOf g b))
  | .text a, .text b => .ok (decide (a < b))
  | .int a, .int b => .ok (decide (a < b))
  | a, b => .error (.unordered (a.word g) (b.word g))

/-- Whether one operand comes before another. -/
def isLess (g : Graph) (a b : Operand) : Except Fault Bool := do
  let a ← comparand g a
  let b ← comparand g b
  less g a b

/-- Whether two operands are the same object, or equal tags, texts or numbers. -/
def isEqual (g : Graph) (a b : Operand) : Except Fault Bool := do
  let a ← comparand g a
  let b ← comparand g b
  pure (decide (a = b))

/-! ## Sorting

Objects are sorted by comparing two at a time. Which pairs are compared shows only when one of them
has no order: then it is the fault. The objects that are in order from the start are kept as they
are, the others are put in one by one. -/

/-- Cut behind the objects of which each is below the one before it, or of which none is. -/
def splitRun (g : Graph) (descends : Bool) : Ref → List Ref → Except Fault (List Ref × List Ref)
  | a, [] => .ok ([a], [])
  | a, b :: rs => do
    if (← less g (.ref b) (.ref a)) == descends then
      let (run, rest) ← splitRun g descends b rs
      pure (a :: run, rest)
    else pure ([a], b :: rs)

/-- The place of an object among the sorted ones from `low` to `high`, behind all that it is not
below, found by halving. -/
def place (g : Graph) (r : Ref) (rs : List Ref) (low high : Nat) : Except Fault Nat :=
  if low < high then do
    let middle := low + (high - low) / 2
    if ← less g (.ref r) (.ref (rs.getD middle r)) then place g r rs low middle
    else place g r rs (middle + 1) high
  else .ok low
termination_by high - low

/-- Put an object in its place among sorted ones. -/
def insertSorted (g : Graph) (rs : List Ref) (r : Ref) : Except Fault (List Ref) := do
  let n ← place g r rs 0 rs.length
  pure (rs.take n ++ r :: rs.drop n)

/-- Sort by name; objects of one name keep their order. -/
def sortByName (g : Graph) : List Ref → Except Fault (List Ref)
  | a :: b :: rs => do
    let descends ← less g (.ref b) (.ref a)
    let (run, rest) ← splitRun g descends a (b :: rs)
    rest.foldlM (insertSorted g) (if descends then run.reverse else run)
  | rs => .ok rs

/-- The objects under some handles, sorted. -/
def sorted (g : Graph) (handles : List String) : Except Fault Answer := do
  let rs ← handles.mapM (find g)
  pure (.list ((← sortByName g rs).map (Answer.ofRef g)))

end JavaOutline.Session
