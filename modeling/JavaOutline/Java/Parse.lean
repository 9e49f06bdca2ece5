import JavaOutline.Java.Grammar

/-! # The syntax tree of a Java text

Declarations are read from the tokens that are no comments; the comments are then woven into the
tree. A comment becomes a child of the smallest node that it stands inside of. A text that cannot
be read to its end has a tree without declarations. -/

namespace JavaOutline

namespace SyntaxTree

/-- Whether a node lies within the extent of another. -/
def isWithin (c t : SyntaxTree) : Bool :=
  t.label.start ≤ c.label.start && c.label.stop ≤ t.label.stop

mutual

/-- Put comments that lie inside a node between its children; a node without children keeps
none. -/
def weave (comments : List SyntaxTree) : SyntaxTree → SyntaxTree
  | .node l [] => .node l []
  | .node l (c :: cs) => .node l (weaveAll comments (c :: cs))

/-- Put comments before, inside and behind the trees of a sequence. -/
def weaveAll (comments : List SyntaxTree) : List SyntaxTree → List SyntaxTree
  | [] => comments
  | t :: ts =>
    comments.filter (fun c => c.label.start < t.label.start) ++
      weave (comments.filter (isWithin · t)) t ::
      weaveAll (comments.filter fun c =>
        !(c.label.start < t.label.start) && !isWithin c t) ts

end

end SyntaxTree

namespace ParsedText

/-- The node of a comment. -/
def commentNode (t : Token) : SyntaxTree :=
  Reader.leafOf t (if t.kind = .blockComment then "block_comment" else "line_comment") true none

/-- The node of a whole text. -/
def program (s : String) (children : List SyntaxTree) : SyntaxTree :=
  .node { kind := "program", start := 0, stop := s.utf8ByteSize, row := 0 } children

/-- Read a text. -/
def ofString (s : String) : ParsedText :=
  let tokens := Token.scan s
  let comments := (tokens.filter Token.isComment).map commentNode
  let code := tokens.filter fun t => !t.isComment
  match Reader.many Reader.topLevel { rest := code } with
  | some (declarations, { rest := [], .. }) =>
    { root := program s (SyntaxTree.weaveAll comments declarations), hasError := false }
  | _ => { root := program s [], hasError := true }

end ParsedText

end JavaOutline
