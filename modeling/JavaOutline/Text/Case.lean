/-! # Capitals

The capital form of a text, as far as it consists of ASCII letters: that of the ASCII letters, and
of the few letters beyond ASCII whose capitals are ASCII. All other characters stay. -/

namespace JavaOutline.Text

/-- The letters beyond ASCII whose capitals are ASCII. -/
def asciiCapitals : List (Char × String) :=
  [('ß', "SS"), ('ı', "I"), ('ſ', "S"), ('ﬀ', "FF"), ('ﬁ', "FI"), ('ﬂ', "FL"), ('ﬃ', "FFI"),
   ('ﬄ', "FFL"), ('ﬅ', "ST"), ('ﬆ', "ST")]

/-- The text in capitals. -/
def capitals (s : String) : String :=
  String.ofList (s.toList.flatMap fun c =>
    match asciiCapitals.lookup c with
    | some u => u.toList
    | none => [c.toUpper])

end JavaOutline.Text
