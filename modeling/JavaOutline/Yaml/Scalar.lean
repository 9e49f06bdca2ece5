import JavaOutline.Config.Datum

/-! # What scalars denote

A plain scalar denotes a truth value, a number, a date or nothing at all if it is written like
one, and otherwise itself. Numbers may have underscores; whole numbers may be binary, octal,
hexadecimal or in base sixty. -/

namespace JavaOutline.Yaml

/-- What a plain scalar is. -/
inductive Scalar where
  | datum (d : Datum)
  /-- The key that merges mappings. -/
  | merge
  /-- The key of a default value. -/
  | equals
deriving Repr, Inhabited

namespace Scalar

def digitValue (c : Char) : Nat :=
  if c.isDigit then c.toNat - '0'.toNat else c.toLower.toNat - 'a'.toNat + 10

/-- The number that digits denote in a base; underscores are left out. -/
def number (base : Nat) (cs : List Char) : Nat :=
  (cs.filter (· != '_')).foldl (fun n c => n * base + digitValue c) 0

/-- A sign and what follows it. -/
def splitSign : List Char → Int × List Char
  | '-' :: r => (-1, r)
  | '+' :: r => (1, r)
  | r => (1, r)

def isDigitOr (c : Char) : Bool := c.isDigit || c == '_'

/-- A number that starts with a digit and goes on with digits and underscores. -/
def isNumeral (cs : List Char) : Bool := (cs.head?.any Char.isDigit) && cs.all isDigitOr

/-- Cut at every colon. -/
def parts : List Char → List (List Char)
  | [] => [[]]
  | c :: r => match parts r with
    | [] => [[c]]
    | p :: ps => if c == ':' then [] :: p :: ps else (c :: p) :: ps

/-- A digit in base sixty. -/
def isSixty : List Char → Bool
  | [a] => a.isDigit
  | [a, b] => '0' ≤ a && a ≤ '5' && b.isDigit
  | _ => false

/-- The number that parts denote in base sixty. -/
def sixties (ps : List (List Char)) : Nat := ps.foldl (fun n p => n * 60 + number 10 p) 0

/-- A whole number without its sign. -/
def natural? : List Char → Option Nat
  | ['0'] => some 0
  | '0' :: 'b' :: r =>
    if !r.isEmpty && r.all fun c => c == '0' || c == '1' || c == '_' then some (number 2 r)
    else none
  | '0' :: 'x' :: r =>
    let isHex := fun (c : Char) => c.isDigit || ('a' ≤ c && c ≤ 'f') || ('A' ≤ c && c ≤ 'F')
    if !r.isEmpty && r.all fun c => isHex c || c == '_' then some (number 16 r) else none
  | '0' :: r => if r.all fun c => ('0' ≤ c && c ≤ '7') || c == '_' then some (number 8 r) else none
  | r => match parts r with
    | [p] => if isNumeral p then some (number 10 p) else none
    | p :: ps => if isNumeral p && ps.all isSixty then some (sixties (p :: ps)) else none
    | [] => none

def int? (cs : List Char) : Option Datum :=
  let (sign, r) := splitSign cs
  (natural? r).map fun n => .int (sign * n)

/-- An exponent, which has a sign. -/
def exponent? : List Char → Option Int
  | [] => some 0
  | e :: r =>
    if e == 'e' || e == 'E' then
      match r with
      | '+' :: ds => if !ds.isEmpty && ds.all Char.isDigit then some (number 10 ds) else none
      | '-' :: ds => if !ds.isEmpty && ds.all Char.isDigit then some (-(number 10 ds)) else none
      | _ => none
    else none

/-- A number with a decimal point. A number in base sixty has no exponent, and one that starts
with the point has no sign. -/
def decimal? (cs : List Char) : Option Datum :=
  let (sign, r) := splitSign cs
  let whole := r.takeWhile (· != '.')
  match r.dropWhile (· != '.') with
  | '.' :: r' =>
    let fraction := r'.takeWhile isDigitOr
    let places := (fraction.filter (· != '_')).length
    let value := fun (n : Nat) (e : Int) =>
      Datum.decimal (sign * (n * Int.pow 10 places + number 10 fraction)) (e - places)
    match parts whole with
    | [p] =>
      let ok := if p.isEmpty then cs.head? == some '.' && (fraction.head?.any Char.isDigit)
        else isNumeral p
      if ok then (exponent? (r'.dropWhile isDigitOr)).map (value (number 10 p)) else none
    | p :: ps =>
      if isNumeral p && ps.all isSixty && (r'.dropWhile isDigitOr).isEmpty then
        some (value (sixties (p :: ps)) 0)
      else none
    | [] => none
  | _ => none

/-- Numbers that are not finite. -/
def nonFinite? (cs : List Char) : Option Datum :=
  let (_, r) := splitSign cs
  if [".inf", ".Inf", ".INF"].contains (String.ofList r) ||
      [".nan", ".NaN", ".NAN"].contains (String.ofList cs)
  then some (.other (String.ofList cs)) else none

/-- Take between `least` and `most` digits. -/
def digits? (least most : Nat) (cs : List Char) : Option (List Char) :=
  let n := min most (cs.takeWhile Char.isDigit).length
  if least ≤ n then some (cs.drop n) else none

def mark? (p : Char → Bool) : List Char → Option (List Char)
  | c :: r => if p c then some r else none
  | [] => none

/-- The time of day and the zone behind a date. -/
def isTime (cs : List Char) : Bool :=
  let rest := do
    let r ← match cs with
      | c :: r =>
        if c == 'T' || c == 't' then some r
        else if c == ' ' || c == '\t' then some (r.dropWhile fun c => c == ' ' || c == '\t')
        else none
      | [] => none
    let r ← digits? 1 2 r
    let r ← mark? (· == ':') r
    let r ← digits? 2 2 r
    let r ← mark? (· == ':') r
    digits? 2 2 r
  match rest with
  | none => false
  | some r =>
    let r := match r with
      | '.' :: r => r.dropWhile Char.isDigit
      | r => r
    let z := r.dropWhile fun c => c == ' ' || c == '\t'
    r.isEmpty || z == ['Z'] || (do
      let z ← mark? (fun c => c == '-' || c == '+') z
      let z ← digits? 1 2 z
      if z.isEmpty then some z
      else
        let z ← mark? (· == ':') z
        digits? 2 2 z) == some []

/-- A date, with a time of day or without. -/
def isDate (cs : List Char) : Bool :=
  let strict := do
    let r ← digits? 4 4 cs
    let r ← mark? (· == '-') r
    let r ← digits? 2 2 r
    let r ← mark? (· == '-') r
    digits? 2 2 r
  let loose := do
    let r ← digits? 4 4 cs
    let r ← mark? (· == '-') r
    let r ← digits? 1 2 r
    let r ← mark? (· == '-') r
    digits? 1 2 r
  strict == some [] || loose.any isTime

def truths : List String :=
  ["yes", "Yes", "YES", "true", "True", "TRUE", "on", "On", "ON"]

def falsehoods : List String :=
  ["no", "No", "NO", "false", "False", "FALSE", "off", "Off", "OFF"]

def nulls : List String := ["~", "null", "Null", "NULL", ""]

/-- What a plain scalar is. -/
def ofPlain (cs : List Char) : Scalar :=
  let s := String.ofList cs
  if truths.contains s then .datum (.bool true)
  else if falsehoods.contains s then .datum (.bool false)
  else if nulls.contains s then .datum .null
  else if s == "<<" then .merge
  else if s == "=" then .equals
  else match (decimal? cs).or ((nonFinite? cs).or (int? cs)) with
    | some d => .datum d
    | none => if isDate cs then .datum (.other s) else .datum (.text s)

/-- What a scalar with an explicit tag denotes. -/
def ofTagged? (tag : String) (cs : List Char) : Option Datum :=
  let s := String.ofList cs
  match tag with
  | "tag:yaml.org,2002:str" => some (.text s)
  | "tag:yaml.org,2002:null" => some .null
  | "tag:yaml.org,2002:int" => int? cs
  | "tag:yaml.org,2002:float" =>
    (decimal? cs).or ((nonFinite? cs).or ((int? cs).map fun
      | .int n => .decimal n 0
      | d => d))
  | "tag:yaml.org,2002:bool" =>
    if truths.contains s then some (.bool true)
    else if falsehoods.contains s then some (.bool false)
    else none
  | "tag:yaml.org,2002:timestamp" => if isDate cs then some (.other s) else none
  | _ => none

end Scalar

end JavaOutline.Yaml
