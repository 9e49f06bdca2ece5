import JavaOutline.Text.CodePoint

/-! # Decoding

The text that the bytes of a file stand for in a character encoding, with every line break made a
line feed.  Which encodings there are is left open (`Codecs`); UTF-8 is always one of them. -/

namespace JavaOutline

/-- What decoding bytes comes to. -/
inductive Decoded where
  | text (s : List CodePoint)
  /-- No encoding has the name that was given. -/
  | unknownEncoding
  /-- The bytes are no text in the encoding. -/
  | malformed
  /-- The codec gives up for another reason. -/
  | refused (reason : String)
deriving DecidableEq, Repr, Inhabited

/-- The codecs that there are: what bytes come to in the encoding with a name. -/
abbrev Codecs := String → ByteArray → Decoded

/-- Make every line break a line feed, where `cr` and `lf` are the two characters of one. -/
def unifyBreaks [DecidableEq α] (cr lf : α) : List α → List α
  | [] => []
  | [c] => [if c = cr then lf else c]
  | c :: d :: s =>
    if c = cr then lf :: (if d = lf then unifyBreaks cr lf s else unifyBreaks cr lf (d :: s))
    else c :: unifyBreaks cr lf (d :: s)

/-- The text of a file in memory. -/
def unifyTextBreaks (s : List CodePoint) : List CodePoint :=
  unifyBreaks (.char '\r') (.char '\n') s

/-- The text of a file that is UTF-8. -/
def utf8Text? (bytes : ByteArray) : Option String :=
  (String.fromUTF8? bytes).map fun s => String.ofList (unifyBreaks '\r' '\n' s.toList)

end JavaOutline
