import JavaOutline.Java.Token
import JavaOutline.Tree.Basic

/-! # Reading tokens

A reader takes tokens from the front of a sequence and fails without a trace if they do not fit.
Readers are combined into readers of nodes, whose extent runs from the first token they take to
the last. -/

namespace JavaOutline

/-- The tokens to read, and the byte at which the last one read ends. -/
structure Cursor where
  rest : List Token
  stop : Nat := 0
deriving Repr, Inhabited

/-- A reader of tokens. -/
abbrev Reader := StateT Cursor Option

namespace Reader

/-- Take a token that satisfies `p`. -/
def token (p : Token → Bool) : Reader Token := fun c =>
  match c.rest with
  | t :: ts => if p t then some (t, { rest := ts, stop := t.stop }) else none
  | [] => none

/-- Look at the next tokens without taking them. -/
def ahead (p : List Token → Bool) : Reader Bool := fun c => some (p c.rest, c)

/-- Go on only under a condition. -/
def guard (b : Bool) : Reader Unit := if b then pure () else failure

/-- Read as often as possible; a round that takes nothing is the last. -/
def many (p : Reader α) : Reader (List α) := fun c => some (go c)
where
  /-- The results and what is left. -/
  go (c : Cursor) : List α × Cursor :=
    match p c with
    | none => ([], c)
    | some (a, d) =>
      if _h : d.rest.length < c.rest.length then
        let r := go d
        (a :: r.1, r.2)
      else ([a], d)
  termination_by c.rest.length

/-- Read if possible. -/
def optional? (p : Reader α) : Reader (Option α) := (some <$> p) <|> pure none

/-- Read children if possible. -/
def maybe (p : Reader (List α)) : Reader (List α) := p <|> pure []

/-- A node without children for one token. -/
def leafOf (t : Token) (kind : String) (named : Bool) (field : Option String) : SyntaxTree :=
  .node { kind, named, field, start := t.start, stop := t.stop, row := t.row } []

/-- A given keyword or mark, as a node of its own. -/
def mark (text : String) : Reader SyntaxTree :=
  (fun t => leafOf t text false none) <$> token (·.is text)

/-- An identifier. -/
def identifier (field : Option String) : Reader SyntaxTree :=
  (fun t => leafOf t "identifier" true field) <$> token Token.isName

/-- A node that spans what `p` takes and has its results as children. -/
def node (kind : String) (field : Option String) (p : Reader (List SyntaxTree)) :
    Reader SyntaxTree := fun c =>
  match c.rest, p c with
  | t :: _, some (cs, d) =>
    some (.node { kind, field, start := t.start, stop := d.stop, row := t.row } cs, d)
  | _, _ => none

/-- A node that spans what `p` takes and hides it. -/
def opaqueNode (kind : String) (field : Option String) (p : Reader α) : Reader SyntaxTree :=
  node kind field ((fun _ => []) <$> p)

/-- One or more, with a mark between them that is kept. -/
def separated (p : Reader SyntaxTree) (sep : String) : Reader (List SyntaxTree) := do
  let first ← p
  let more ← many (do let m ← mark sep; let t ← p; pure [m, t])
  pure (first :: more.flatten)

/-- Skip behind the mark that closes the brackets open at hand, `depth` of them nested. -/
def skipClose : Nat → List Token → Option Cursor
  | _, [] => none
  | depth, t :: ts =>
    if t.opens then skipClose (depth + 1) ts
    else if t.closes then
      match depth with
      | 0 => some { rest := ts, stop := t.stop }
      | d + 1 => skipClose d ts
    else skipClose depth ts

/-- An opening mark and everything up to the mark that closes it. -/
def brackets («open» : String) : Reader Unit := do
  let _ ← mark «open»
  fun c => (skipClose 0 c.rest).map fun d => ((), d)

/-- Skip behind the angle that closes those open at hand; angles in brackets do not count. -/
def skipAngles (depth angles : Nat) : List Token → Option Cursor
  | [] => none
  | t :: ts =>
    if t.opens then skipAngles (depth + 1) angles ts
    else if t.closes then skipAngles (depth - 1) angles ts
    else if 0 < depth then skipAngles depth angles ts
    else if t.is "<" then skipAngles depth (angles + 1) ts
    else if t.is ">" then
      match angles with
      | 0 => some { rest := ts, stop := t.stop }
      | n + 1 => skipAngles depth n ts
    else skipAngles depth angles ts

/-- A list between angles. -/
def angles : Reader Unit := do
  let _ ← mark "<"
  fun c => (skipAngles 0 0 c.rest).map fun d => ((), d)

/-- How many tokens there are behind an angle up to the one that closes it, if they are type
arguments rather than the right side of a comparison; `depth` brackets and `angles` angles are
nested. -/
def typeArguments? : Nat → Nat → List Token → Option Nat
  | _, _, [] => none
  | depth, angles, t :: ts =>
    if t.is ";" then none
    else if t.opens then (typeArguments? (depth + 1) angles ts).map (· + 1)
    else if t.closes then
      match depth with
      | 0 => none
      | d + 1 => (typeArguments? d angles ts).map (· + 1)
    else if 0 < depth then (typeArguments? depth angles ts).map (· + 1)
    else if t.is "<" then (typeArguments? depth (angles + 1) ts).map (· + 1)
    else if t.is ">" then
      match angles with
      | 0 => some 1
      | n + 1 => (typeArguments? depth n ts).map (· + 1)
    else if t.isWordToken || t.is "." || t.is "," || t.is "?" || t.is "@" then
      (typeArguments? depth angles ts).map (· + 1)
    else none

/-- Skip an expression: up to a comma, a semicolon or a closing mark outside of the brackets that
it opens. The next `args` tokens are known to be type arguments. -/
def skipExpression (depth args stop : Nat) : List Token → Option Cursor
  | [] => none
  | t :: ts =>
    if 0 < args then skipExpression depth (args - 1) t.stop ts
    else if depth = 0 ∧ (t.is "," || t.is ";" || t.closes) then some { rest := t :: ts, stop }
    else if t.opens then skipExpression (depth + 1) 0 t.stop ts
    else if t.closes then skipExpression (depth - 1) 0 t.stop ts
    else if depth = 0 ∧ t.is "<" then
      skipExpression depth ((typeArguments? 0 0 ts).getD 0) t.stop ts
    else skipExpression depth 0 t.stop ts

/-- An expression, which is not empty. -/
def expression : Reader Unit := fun c =>
  match skipExpression 0 0 c.stop c.rest with
  | some d => if d.rest.length < c.rest.length then some ((), d) else none
  | none => none

end Reader

end JavaOutline
