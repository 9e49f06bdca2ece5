import JavaOutline.Text.Blank

/-! # Lines

A text is cut into lines at line feeds; a text with `n` line feeds has `n + 1` lines, so joining
the lines gives the text back. -/

namespace JavaOutline.Text

/-- Cut at every occurrence of a separator. -/
def splitAt (sep : Char) : List Char → List (List Char)
  | [] => [[]]
  | c :: r => match splitAt sep r with
    | [] => [[c]]
    | l :: ls => if c = sep then [] :: l :: ls else (c :: l) :: ls

theorem splitAt_ne_nil (sep : Char) (s : List Char) : splitAt sep s ≠ [] := by
  cases s with
  | nil => simp [splitAt]
  | cons c r => rw [splitAt]; split <;> (try split) <;> simp

/-- The lines of a text. -/
def lines (s : List Char) : List (List Char) := splitAt '\n' s

/-- Put a separator between consecutive pieces. -/
def joinWith (sep : List Char) : List (List Char) → List Char
  | [] => []
  | [l] => l
  | l :: m :: ls => l ++ sep ++ joinWith sep (m :: ls)

/-- The text with these lines. -/
def unlines (ls : List (List Char)) : List Char := joinWith ['\n'] ls

theorem joinWith_splitAt (sep : Char) (s : List Char) : joinWith [sep] (splitAt sep s) = s := by
  induction s with
  | nil => rfl
  | cons c r ih =>
    rw [splitAt]
    split
    · next h => exact absurd h (splitAt_ne_nil sep r)
    · next l ls h =>
      rw [h] at ih
      split
      · next hc => rw [joinWith, ih, hc]; rfl
      · cases ls with
        | nil => simpa [joinWith] using ih
        | cons m ms => simpa [joinWith] using ih

@[simp] theorem unlines_lines (s : List Char) : unlines (lines s) = s := joinWith_splitAt '\n' s

/-- Drop empty lines at both ends. -/
def trimEmptyLines (ls : List (List Char)) : List (List Char) :=
  dropEndWhile List.isEmpty (ls.dropWhile List.isEmpty)

/-- Drop lines of blanks at both ends. -/
def trimBlankLines (ls : List (List Char)) : List (List Char) :=
  dropEndWhile (·.all isBlank) (ls.dropWhile (·.all isBlank))

/-- The longest common start of two texts. -/
def commonStart : List Char → List Char → List Char
  | a :: r, b :: s => if a = b then a :: commonStart r s else []
  | _, _ => []

/-- Spaces and tabs, the characters that indent a line. -/
def isIndentChar (c : Char) : Bool := c == ' ' || c == '\t'

/-- The spaces and tabs that start a line. -/
def indentOf (l : List Char) : List Char := l.takeWhile isIndentChar

/-- The longest run of spaces and tabs that starts every line which holds anything else. -/
def commonIndent (ls : List (List Char)) : List Char :=
  match (ls.filter fun l => !l.all isIndentChar).map indentOf with
  | [] => []
  | i :: is => is.foldl commonStart i

/-- Remove the common indentation; a line of nothing but spaces and tabs becomes empty. -/
def dedentLines (ls : List (List Char)) : List (List Char) :=
  let n := (commonIndent ls).length
  ls.map fun l => if l.all isIndentChar then [] else l.drop n

end JavaOutline.Text
