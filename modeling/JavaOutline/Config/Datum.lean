/-! # Data

The values that a configuration can hold: what JSON or YAML text denotes. Mappings keep the order
in which their keys were first written. -/

namespace JavaOutline

/-- A value. -/
inductive Datum where
  | null
  | bool (b : Bool)
  | int (n : Int)
  /-- The number `mantissa * 10 ^ exponent`, as it was written with a decimal point or an exponent.
  What is made of it is the nearest double. -/
  | decimal (mantissa exponent : Int)
  /-- A number that is not finite, or a date; `text` is how it was written. -/
  | other (text : String)
  | text (s : String)
  | list (xs : List Datum)
  | map (kvs : List (Datum × Datum))
deriving Repr, Inhabited

end JavaOutline
