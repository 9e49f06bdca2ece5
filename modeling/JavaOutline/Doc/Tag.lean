import JavaOutline.Text.Blank
import JavaOutline.Text.Quoted
import JavaOutline.Text.Word

/-! # Block tags

A block tag `@name value` of a documentation comment. Its value is raw text. Two readings of it:
the words, in which a closed quoted section keeps its blanks, and the named parameters
`key=value`, of which the first under each key counts. -/

namespace JavaOutline

open Text

/-- A block tag with the number of the line it starts on. -/
structure Tag where
  name : String
  value : String
  line : Int
deriving DecidableEq, Repr, Inhabited

namespace Tag

/-- The tag as it is written in a comment. -/
def text (t : Tag) : String :=
  if t.value.isEmpty then "@" ++ t.name else "@" ++ t.name ++ " " ++ t.value

/-! ## Words -/

/-- The two quote characters. -/
def isQuote (c : Char) : Bool := c == '"' || c == '\''

/-- Mark each character by whether it parts two words. A quote that occurs again opens a section
which ends there, and nothing in a section parts words; a quote that does not occur again is a
character like any other. The first argument is the quote that closes the section at hand. -/
def marks : Option Char → List Char → List (Char × Bool)
  | _, [] => []
  | some q, c :: r => (c, false) :: marks (if c = q then none else some q) r
  | none, c :: r =>
    if isQuote c then (c, false) :: marks (if c ∈ r then some c else none) r
    else (c, isBlank c) :: marks none r

/-- The runs of characters that part no words. -/
def chunks : List (Char × Bool) → List (List Char)
  | [] => []
  | (_, true) :: r => chunks r
  | [(c, false)] => [[c]]
  | (c, false) :: (_, true) :: r => [c] :: chunks r
  | (c, false) :: (d, false) :: r => match chunks ((d, false) :: r) with
    | [] => [[c]]
    | w :: ws => (c :: w) :: ws

/-- The words of a value. -/
def wordsOf (v : List Char) : List (List Char) := chunks (marks none v)

/-- The words of the tag's value, quoted sections kept whole. -/
def words (t : Tag) : List String := (wordsOf t.value.toList).map String.ofList

/-! ## Named parameters -/

/-- The characters of a key. -/
def isKeyChar (c : Char) : Bool := isWord c || c == '.' || c == '-'

/-- The text up to the next `q`, and what follows that. -/
def untilQuote (q : Char) : List Char → Option (List Char × List Char)
  | [] => none
  | c :: r => if c = q then some ([], r) else (untilQuote q r).map fun p => (c :: p.1, p.2)

theorem length_of_untilQuote {q : Char} {s : List Char} {p : List Char × List Char}
    (h : untilQuote q s = some p) : p.2.length < s.length := by
  induction s generalizing p with
  | nil => simp [untilQuote] at h
  | cons c r ih =>
    rw [untilQuote] at h
    split at h
    · cases h; simp
    · obtain ⟨u, hu, rfl⟩ := Option.map_eq_some_iff.1 h
      exact Nat.lt_succ_of_lt (ih (p := u) hu)

/-- A value without quotes: it ends before the next blank. -/
def bareValue (s : List Char) : List Char × List Char :=
  (s.takeWhile (!isBlank ·), s.dropWhile (!isBlank ·))

/-- What stands behind an equals sign: a closed quoted text, or else everything up to the next
blank, which has to be something. -/
def valueOf? (s : List Char) : Option (List Char × List Char) :=
  match trimStart s with
  | [] => none
  | c :: r =>
    if isQuote c then (untilQuote c r).or (some (bareValue (c :: r)))
    else some (bareValue (c :: r))

/-- A key at the very start, blanks, an equals sign and a value, with what follows. -/
def pairAt? (s : List Char) : Option ((List Char × List Char) × List Char) :=
  let key := s.takeWhile isKeyChar
  if key.isEmpty then none
  else match trimStart (s.dropWhile isKeyChar) with
    | '=' :: r => (valueOf? r).map fun p => ((key, p.1), p.2)
    | _ => none

theorem length_dropWhile_le (p : Char → Bool) (s : List Char) :
    (s.dropWhile p).length ≤ s.length := (List.dropWhile_sublist p).length_le

theorem length_trimStart_le (s : List Char) : (trimStart s).length ≤ s.length :=
  length_dropWhile_le _ s

theorem length_bareValue_le (s : List Char) : (bareValue s).2.length ≤ s.length :=
  length_dropWhile_le _ s

theorem length_of_valueOf? {s : List Char} {p : List Char × List Char} (h : valueOf? s = some p) :
    p.2.length ≤ s.length := by
  have hs := length_trimStart_le s
  unfold valueOf? at h
  split at h
  · simp at h
  · next c r e =>
    rw [e] at hs
    have hb : (bareValue (c :: r)).2.length ≤ s.length :=
      Nat.le_trans (length_bareValue_le _) hs
    split at h
    · cases hu : untilQuote c r with
      | none => simp only [hu, Option.or, Option.some.injEq] at h; exact h ▸ hb
      | some u =>
        simp only [hu, Option.or, Option.some.injEq] at h
        have := length_of_untilQuote hu
        simp only [List.length_cons] at hs
        subst h
        omega
    · simp only [Option.some.injEq] at h
      exact h ▸ hb

theorem length_of_pairAt? {s : List Char} {p : (List Char × List Char) × List Char}
    (h : pairAt? s = some p) : p.2.length < s.length := by
  unfold pairAt? at h
  simp only at h
  split at h
  · simp at h
  · split at h
    · next r e =>
      obtain ⟨q, hq, rfl⟩ := Option.map_eq_some_iff.1 h
      have h1 := length_of_valueOf? hq
      have h2 := length_trimStart_le (s.dropWhile isKeyChar)
      have h3 := length_dropWhile_le isKeyChar s
      rw [e] at h2
      simp only [List.length_cons] at h2
      simp only
      omega
    · simp at h

/-- All pairs of a value, from left to right: the search goes on behind each pair. -/
def pairsOf (s : List Char) : List (List Char × List Char) :=
  match _h : pairAt? s with
  | some p => p.1 :: pairsOf p.2
  | none => match s with
    | [] => []
    | _ :: r => pairsOf r
termination_by s.length
decreasing_by
  · exact length_of_pairAt? _h
  · simp

/-- Keep the first pair under each key. -/
def firstByKey [BEq κ] : List (κ × ν) → List (κ × ν)
  | [] => []
  | p :: r => p :: (firstByKey r).filter fun q => !(q.1 == p.1)

/-- The named parameters of the tag's value, in the order their keys first occur. -/
def namedParameters (t : Tag) : List (String × String) :=
  firstByKey ((pairsOf t.value.toList).map fun p => (String.ofList p.1, String.ofList p.2))

/-- The named parameter under a key. -/
def namedParameter? (t : Tag) (key : String) : Option String := t.namedParameters.lookup key

/-- The tag with all its parts, as a one-line term. -/
def describe (t : Tag) : String :=
  "DocletTag(name=" ++ quoted t.name ++ ", value=" ++ quoted t.value ++ ", line_number=" ++
    toString t.line ++ ")"

end Tag

end JavaOutline
