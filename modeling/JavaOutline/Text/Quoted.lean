import JavaOutline.Text.Printable

/-! # Quoted texts

A text is quoted with apostrophes, or with quotation marks when it holds an apostrophe and no
quotation mark. The backslash, the quote in use and every character that is not printable are
escaped, so a quoted text is one printable line. -/

namespace JavaOutline.Text

/-- The hexadecimal digits of `n`, filled up with zeros to `width` places. -/
def hexDigits (width n : Nat) : List Char :=
  let ds := Nat.toDigits 16 n
  List.replicate (width - ds.length) '0' ++ ds

/-- One character inside quotes `q`. -/
def escapeChar (q c : Char) : List Char :=
  if c = '\\' ∨ c = q then ['\\', c]
  else if c = '\n' then ['\\', 'n']
  else if c = '\r' then ['\\', 'r']
  else if c = '\t' then ['\\', 't']
  else if isPrintable c then [c]
  else if c.toNat < 0x100 then '\\' :: 'x' :: hexDigits 2 c.toNat
  else if c.toNat < 0x10000 then '\\' :: 'u' :: hexDigits 4 c.toNat
  else '\\' :: 'U' :: hexDigits 8 c.toNat

/-- The quote a text is written in. -/
def quoteFor (s : List Char) : Char :=
  if '\'' ∈ s ∧ '"' ∉ s then '"' else '\''

/-- A text between quotes, on one line. -/
def quoted (s : String) : String :=
  let cs := s.toList
  let q := quoteFor cs
  String.ofList (q :: cs.flatMap (escapeChar q) ++ [q])

/-- Quoted texts between brackets. -/
def quotedList (ss : List String) : String := "[" ++ ", ".intercalate (ss.map quoted) ++ "]"

/-- A quoted text, or the word for one that is missing. -/
def quotedOption : Option String → String
  | none => "None"
  | some s => quoted s

end JavaOutline.Text
