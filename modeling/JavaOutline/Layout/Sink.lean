import JavaOutline.Text.Lines

/-! # An indenting sink

Text is written into a sink that knows the current depth. The indentation is put in front of a
line when its first piece of text arrives, so a line that stays empty is not indented. -/

namespace JavaOutline

/-- A text being written, with the depth in force. -/
structure Sink where
  /-- One step of indentation. -/
  unit : String := "    "
  /-- The text that ends a line. -/
  lineEnd : String := "\n"
  depth : Nat := 0
  /-- What has been written. -/
  text : String := ""
  /-- Nothing stands on the current line. -/
  atLineStart : Bool := true
deriving DecidableEq, Repr, Inhabited

namespace Sink

/-- `n` copies of a text. -/
def repeated (n : Nat) (s : String) : String := String.join (List.replicate n s)

/-- End the current line. -/
def newline (s : Sink) : Sink := { s with text := s.text ++ s.lineEnd, atLineStart := true }

/-- Write a piece of a line; an empty piece is nothing. -/
def piece (s : Sink) (l : List Char) : Sink :=
  if l.isEmpty then s
  else if s.atLineStart then
    { s with text := s.text ++ repeated s.depth s.unit ++ String.ofList l, atLineStart := false }
  else { s with text := s.text ++ String.ofList l }

/-- Write a text; a line feed in it ends the line. -/
def write (s : Sink) (t : String) : Sink :=
  match Text.lines t.toList with
  | [] => s
  | l :: ls => ls.foldl (fun s l => s.newline.piece l) (s.piece l)

/-- Write a text and end the line. -/
def writeLine (s : Sink) (t : String) : Sink := (s.write t).newline

/-- One step deeper. -/
def indent (s : Sink) : Sink := { s with depth := s.depth + 1 }

/-- One step back; depth zero stays. -/
def deindent (s : Sink) : Sink := { s with depth := s.depth - 1 }

end Sink

end JavaOutline
