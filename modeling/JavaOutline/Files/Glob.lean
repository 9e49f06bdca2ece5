/-! # Globs

A glob stands for a set of texts: `*` for any text, `?` for any character, brackets for one
character of a set, and every other character for itself. Nothing is special about slashes. -/

namespace JavaOutline

namespace Glob

/-- One part of a glob. -/
inductive Item where
  /-- Any text, the empty one included. -/
  | star
  /-- Any one character. -/
  | any
  | char (c : Char)
  /-- One character in one of the closed ranges, or in none of them. -/
  | set (negated : Bool) (ranges : List (Char × Char))
deriving DecidableEq, Repr, Inhabited

namespace Item

/-- Whether an item other than `star` stands for a character. -/
def admits : Item → Char → Bool
  | .star, _ => false
  | .any, _ => true
  | .char d, c => c == d
  | .set neg rs, c => (rs.any fun r => r.1 ≤ c && c ≤ r.2) != neg

end Item

/-- All ends of a text, the text itself first. -/
def tails : List α → List (List α)
  | [] => [[]]
  | a :: r => (a :: r) :: tails r

/-- Whether a glob stands for a text. -/
def accepts : List Item → List Char → Bool
  | [], s => s.isEmpty
  | .star :: ps, s => (tails s).any (accepts ps)
  | _ :: _, [] => false
  | p :: ps, c :: r => p.admits c && accepts ps r

/-! ## Reading -/

/-- What stands between brackets. -/
inductive Part where
  | single (c : Char)
  /-- All characters from the one to the other. -/
  | range (a b : Char)
deriving DecidableEq, Repr, Inhabited

/-- The ends of a part. -/
def Part.ends : Part → Char × Char
  | .single c => (c, c)
  | .range a b => (a, b)

/-- The parts between brackets. A hyphen makes a range of the characters around it, unless it
is the first or last or the character before it ends a range; a range in falling order holds
nothing and is left out. -/
def parts : List Char → List Part
  | a :: '-' :: b :: r => if a ≤ b then .range a b :: parts r else parts r
  | a :: r => .single a :: parts r
  | [] => []

/-- The set between brackets, which `!` negates. What is left when falling ranges are gone
decides whether there is a `!` in front; if it was then to start a range, the set leaves out the
hyphen and the end of that range. -/
def setOf (content : List Char) : Item :=
  match content with
  | '!' :: r => .set true ((parts r).map Part.ends)
  | _ => match parts content with
    | .single '!' :: ps => .set true (ps.map Part.ends)
    | .range '!' b :: ps => .set true (('-', '-') :: (b, b) :: ps.map Part.ends)
    | ps => .set false (ps.map Part.ends)

/-- Cut at the bracket that closes a set whose inside starts here; a bracket in front, also
behind a `!`, belongs to the set. -/
def cutSet? : List Char → Option (List Char × List Char)
  | '!' :: ']' :: r => (close? r).map fun p => ('!' :: ']' :: p.1, p.2)
  | ']' :: r => (close? r).map fun p => (']' :: p.1, p.2)
  | r => close? r
where
  /-- Cut at the next closing bracket. -/
  close? : List Char → Option (List Char × List Char)
    | [] => none
    | c :: r => if c = ']' then some ([], r) else (close? r).map fun p => (c :: p.1, p.2)

/-- Read a glob; an opening bracket that is never closed stands for itself. The first argument
bounds the number of items. -/
def itemsWithin : Nat → List Char → List Item
  | 0, _ => []
  | _ + 1, [] => []
  | n + 1, '*' :: r => .star :: itemsWithin n r
  | n + 1, '?' :: r => .any :: itemsWithin n r
  | n + 1, '[' :: r => match cutSet? r with
    | some (inside, rest) => setOf inside :: itemsWithin n rest
    | none => .char '[' :: itemsWithin n r
  | n + 1, c :: r => .char c :: itemsWithin n r

/-- The items of a glob. -/
def items (s : List Char) : List Item := itemsWithin s.length s

/-- Whether the glob `pattern` stands for `s`. -/
def «matches» (pattern s : List Char) : Bool := accepts (items pattern) s

end Glob

end JavaOutline
