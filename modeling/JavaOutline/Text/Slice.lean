/-! # Slices by byte offset

A text is addressed by offsets into its UTF-8 encoding. A slice is again a text exactly when it
is empty or both its ends fall between two characters; an end past the text is moved back to
its end. -/

namespace JavaOutline.Text

/-- A slice that would cut a character in two, with the offsets asked for. -/
structure CutCharacter where
  start : Nat
  stop : Nat
deriving DecidableEq, Repr, Inhabited

/-- The number of bytes of a text in UTF-8. -/
def byteLength : List Char → Nat
  | [] => 0
  | c :: r => c.utf8Size + byteLength r

/-- The text from byte `n` on, if no character is cut; empty past the end. -/
def dropBytes? : List Char → Nat → Option (List Char)
  | s, 0 => some s
  | [], _ + 1 => some []
  | c :: r, n + 1 => if c.utf8Size ≤ n + 1 then dropBytes? r (n + 1 - c.utf8Size) else none

/-- The text before byte `n`, if no character is cut; the whole text past the end. -/
def takeBytes? : List Char → Nat → Option (List Char)
  | _, 0 => some []
  | [], _ + 1 => some []
  | c :: r, n + 1 =>
    if c.utf8Size ≤ n + 1 then (takeBytes? r (n + 1 - c.utf8Size)).map (c :: ·) else none

/-- The text between two byte offsets. -/
def slice (s : List Char) (start stop : Nat) : Except CutCharacter (List Char) :=
  if stop ≤ start then .ok []
  else match (dropBytes? s start).bind (takeBytes? · (stop - start)) with
    | some t => .ok t
    | none => .error ⟨start, stop⟩

end JavaOutline.Text
