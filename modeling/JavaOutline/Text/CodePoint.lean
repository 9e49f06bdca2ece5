import JavaOutline.Text.Quoted

/-! # Code points

A text in memory is a sequence of code points.  Most of them are characters; a surrogate is none,
and a text that holds one cannot be encoded. -/

namespace JavaOutline

open Text

/-- A code point. -/
inductive CodePoint where
  | char (c : Char)
  /-- The `n`-th surrogate, counted from `U+D800`. -/
  | surrogate (n : Fin 2048)
deriving DecidableEq, Repr, Inhabited

/-- The first surrogates in a text that is to be encoded. -/
structure LoneSurrogate where
  /-- The number of code points before them. -/
  position : Nat
  first : Fin 2048
  /-- The number of surrogates right behind the first. -/
  more : Nat
deriving DecidableEq, Repr, Inhabited

def LoneSurrogate.message (e : LoneSurrogate) : String :=
  let place := if e.more = 0 then
      "character '\\u" ++ String.ofList (hexDigits 4 (0xd800 + e.first)) ++ "' in position " ++
        toString e.position
    else "characters in position " ++ toString e.position ++ "-" ++ toString (e.position + e.more)
  "'utf-8' codec can't encode " ++ place ++ ": surrogates not allowed"

namespace CodePoint

/-- The code points of a text that is made of characters. -/
def ofString (s : String) : List CodePoint := s.toList.map char

def isSurrogate : CodePoint → Bool
  | .char _ => false
  | .surrogate _ => true

/-- The characters of a text behind `n` code points, if there are no surrogates among them. -/
def charsFrom (n : Nat) : List CodePoint → Except LoneSurrogate (List Char)
  | [] => .ok []
  | .char c :: s => (c :: ·) <$> charsFrom (n + 1) s
  | .surrogate first :: s => .error ⟨n, first, (s.takeWhile isSurrogate).length⟩

/-- The text that is encoded, if there are no surrogates in it. -/
def encode (s : List CodePoint) : Except LoneSurrogate String := String.ofList <$> charsFrom 0 s

end CodePoint

end JavaOutline
