import JavaOutline.Doc.Tag
import JavaOutline.Text.Lines

/-! # Documentation comments

Reading a comment `/** ... */`: the delimiters and the star in front of each line are taken off,
the lines before the first block tag are its body, and each line that starts a tag opens a value
which runs to the next such line. -/

namespace JavaOutline

open Text

/-- What a documentation comment says. -/
structure Doc where
  body : Option String
  tags : List Tag
deriving DecidableEq, Repr, Inhabited

namespace Doc

/-- Remove `pre` from the start of a text that starts with it. -/
def dropStart (pre s : List Char) : List Char := if pre.isPrefixOf s then s.drop pre.length else s

/-- Remove `post` from the end of a text that ends with it. -/
def dropEnd (post s : List Char) : List Char :=
  if post.isSuffixOf s then s.take (s.length - post.length) else s

/-- Documentation comments open with two stars; `/**/` is an empty plain comment. -/
def isDocComment (s : List Char) : Bool :=
  ['/', '*', '*'].isPrefixOf s && ['*', '/'].isSuffixOf s && 4 < s.length

/-- A line without the star in front, one space behind that, and blanks around it all. -/
def dropStar (l : List Char) : List Char :=
  match trim l with
  | '*' :: ' ' :: r => trimEnd r
  | '*' :: r => trimEnd r
  | r => trimEnd r

/-- The lines of a comment without its delimiters and stars. -/
def commentLines (s : List Char) : List (List Char) :=
  (lines (dropEnd ['*', '/'] (dropStart ['/', '*', '*'] (trim s)))).map dropStar

/-- The characters of a tag's name. -/
def isNameChar (c : Char) : Bool := !isBlank c && c != '@'

/-- A line that starts a tag: `@`, a name, and behind at most one blank the value's first line. -/
def tagLine? : List Char → Option (List Char × List Char)
  | '@' :: r =>
    let name := r.takeWhile isNameChar
    if name.isEmpty then none
    else match r.dropWhile isNameChar with
      | [] => some (name, [])
      | c :: v => some (name, if isBlank c then v else c :: v)
  | _ => none

/-- Lines that go on with what is before them. -/
def isContinuation (l : List Char) : Bool := (tagLine? l).isNone

/-- A tag's value from the rest of its first line and the lines that go on with it. -/
def tagValue (first : List Char) (more : List (List Char)) : List Char :=
  unlines (trimEmptyLines (first :: more.map trim))

/-- The tags that start on the given lines, the first of which has number `n`. -/
def tagsFrom : Int → List (List Char) → List Tag
  | _, [] => []
  | n, l :: ls => match tagLine? l with
    | none => tagsFrom (n + 1) ls
    | some (name, v) =>
      { name := String.ofList name
        value := String.ofList (tagValue v (ls.takeWhile isContinuation))
        line := n } :: tagsFrom (n + 1) ls

/-- The body that stands before the first tag, if there is any. -/
def bodyOf (ls : List (List Char)) : Option String :=
  match unlines (trimEmptyLines (ls.takeWhile isContinuation)) with
  | [] => none
  | c :: r => some (String.ofList (c :: r))

/-- Read a comment that starts on line `n`. -/
def read (s : String) (n : Int) : Doc :=
  let ls := commentLines s.toList
  { body := bodyOf ls, tags := tagsFrom n ls }

end Doc

end JavaOutline
