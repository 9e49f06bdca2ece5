import JavaOutline.Files.Decode

/-! # Encodings

The codecs that the program comes with: UTF-8, Latin-1, ASCII and UTF-16. -/

namespace JavaOutline

/-- The encodings that are known. -/
inductive Encoding where
  | utf8
  | latin1
  | ascii
  | utf16
deriving DecidableEq, Repr, Inhabited

namespace Encoding

/-- The names of an encoding, in small letters with underscores. -/
def names : Encoding → List String
  | .utf8 => ["utf_8", "utf8", "u8", "utf", "utf8_ucs2", "utf8_ucs4", "cp65001"]
  | .latin1 =>
    ["latin_1", "latin1", "latin", "l1", "8859", "cp819", "csisolatin1", "ibm819", "iso8859",
     "iso8859_1", "iso_8859_1", "iso_8859_1_1987", "iso_ir_100"]
  | .ascii =>
    ["ascii", "646", "ansi_x3_4_1968", "ansi_x3_4_1986", "cp367", "csascii", "ibm367", "iso646_us",
     "iso_646_irv_1991", "iso_ir_6", "us", "us_ascii"]
  | .utf16 => ["utf_16", "utf16", "u16"]

/-- A name in small letters, with one underscore for every run of other characters than letters
and digits. -/
def normalize : List Char → List Char
  | [] => []
  | c :: r =>
    if c.isAlphanum then c.toLower :: normalize r
    else match normalize r with
      | '_' :: r => '_' :: r
      | r => '_' :: r

/-- The encoding with a name. -/
def ofName? (name : String) : Option Encoding :=
  let n := String.ofList (normalize name.toList)
  [Encoding.utf8, .latin1, .ascii, .utf16].find? fun e => e.names.contains n

/-- The characters whose numbers are the bytes. -/
def ofBytes (bytes : List UInt8) : List CodePoint := bytes.map fun b => .char (Char.ofNat b.toNat)

/-! ## UTF-16 -/

/-- The units of two bytes, the lower byte first or last. -/
def units? (lowFirst : Bool) : List UInt8 → Option (List Nat)
  | [] => some []
  | [_] => none
  | a :: b :: r =>
    let unit := if lowFirst then a.toNat + 256 * b.toNat else 256 * a.toNat + b.toNat
    (unit :: ·) <$> units? lowFirst r

/-- The characters of units; the two halves of a character have to stand together. -/
def charsOfUnits? : List Nat → Option (List CodePoint)
  | [] => some []
  | u :: r =>
    if 0xdc00 ≤ u ∧ u < 0xe000 then none
    else if 0xd800 ≤ u ∧ u < 0xdc00 then
      match r with
      | v :: r =>
        if 0xdc00 ≤ v ∧ v < 0xe000 then
          (.char (Char.ofNat (0x10000 + (u - 0xd800) * 0x400 + (v - 0xdc00))) :: ·) <$>
            charsOfUnits? r
        else none
      | [] => none
    else (.char (Char.ofNat u) :: ·) <$> charsOfUnits? r

/-- The text of UTF-16 bytes. They have to start with a mark of their order, but that is asked for
only once they have been read. -/
def decodeUtf16 (bytes : List UInt8) : Decoded :=
  let (marked, lowFirst, content) := match bytes with
    | 0xff :: 0xfe :: r => (true, true, r)
    | 0xfe :: 0xff :: r => (true, false, r)
    | r => (r.isEmpty, true, r)
  match units? lowFirst content >>= charsOfUnits? with
  | none => .malformed
  | some s => if marked then .text s else .refused "UTF-16 stream does not start with BOM"

/-! ## Decoding -/

/-- The text that bytes stand for. -/
def decode (e : Encoding) (bytes : ByteArray) : Decoded :=
  match e with
  | .utf8 => match String.fromUTF8? bytes with
    | some s => .text (CodePoint.ofString s)
    | none => .malformed
  | .latin1 => .text (ofBytes bytes.toList)
  | .ascii =>
    if bytes.toList.all (· < 128) then .text (ofBytes bytes.toList) else .malformed
  | .utf16 => decodeUtf16 bytes.toList

/-- The codecs of all encodings. -/
def codecs : Codecs := fun name bytes =>
  match ofName? name with
  | none => .unknownEncoding
  | some e => e.decode bytes

end Encoding

end JavaOutline
