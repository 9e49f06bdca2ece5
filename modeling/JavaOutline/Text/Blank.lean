/-! # Blank characters and trimming

Blank characters are the white space of every script, the four information separators and the
line breaks. Trimming takes them from the ends of a text and keeps all that stands between. -/

namespace JavaOutline.Text

/-- White space, separators and line breaks. -/
def isBlank (c : Char) : Bool :=
  let n := c.toNat
  (0x09 ≤ n && n ≤ 0x0D) || (0x1C ≤ n && n ≤ 0x20) || n == 0x85 || n == 0xA0 || n == 0x1680 ||
  (0x2000 ≤ n && n ≤ 0x200A) || n == 0x2028 || n == 0x2029 || n == 0x202F || n == 0x205F ||
  n == 0x3000

/-- Drop blanks in front. -/
def trimStart (s : List Char) : List Char := s.dropWhile isBlank

/-- Drop the longest run of characters satisfying `p` at the end. -/
def dropEndWhile (p : α → Bool) : List α → List α
  | [] => []
  | a :: r => match dropEndWhile p r with
    | [] => if p a then [] else [a]
    | b :: t => a :: b :: t

@[simp] theorem dropEndWhile_nil (p : α → Bool) : dropEndWhile p [] = [] := rfl

theorem dropEndWhile_cons (p : α → Bool) (a : α) (r : List α) :
    dropEndWhile p (a :: r) =
      if dropEndWhile p r = [] then (if p a then [] else [a]) else a :: dropEndWhile p r := by
  rw [dropEndWhile]; split <;> simp_all

/-- Drop blanks behind. -/
def trimEnd (s : List Char) : List Char := dropEndWhile isBlank s

/-- Drop blanks at both ends. -/
def trim (s : List Char) : List Char := trimEnd (trimStart s)

/-- Every run of blanks becomes one space, and none is left at the ends. -/
def collapseBlanks (s : List Char) : List Char :=
  trim (squeeze s)
where
  /-- Every run of blanks becomes one space. -/
  squeeze : List Char → List Char
    | [] => []
    | [c] => if isBlank c then [' '] else [c]
    | c :: d :: r =>
      if isBlank c then (if isBlank d then squeeze (d :: r) else ' ' :: squeeze (d :: r))
      else c :: squeeze (d :: r)

end JavaOutline.Text
