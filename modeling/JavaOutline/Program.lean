import JavaOutline.CommandLine.Run
import JavaOutline.Config.Validate
import JavaOutline.Files.Encodings
import JavaOutline.Java.Parse
import JavaOutline.Yaml.Document

/-! # The tools of the program

Nothing that is said of extracting, loading and running depends on how bytes are decoded, Java is
parsed, and configuration files are read and checked. These are the tools that the program runs
with. -/

namespace JavaOutline

/-- The front end of the program. -/
def Frontend.own : Frontend where
  decode := Encoding.codecs
  parse := ParsedText.ofString

/-- A name that is a text. -/
def Datum.text? : Datum → Option String
  | .text s => some s
  | _ => none

/-- What a configuration file comes to that is read as YAML. -/
def Loaded.ofYaml (bytes : ByteArray) : Loaded Datum :=
  match utf8Text? bytes with
  | none => .undecodable
  | some s => match Yaml.load? s with
    | none => .unreadable
    | some (.map kvs) => .mapping (kvs.map fun p => (p.1.text?, p.2))
    | some _ => .other

namespace CommandLine

/-- The tools of the program. -/
def Toolkit.own : Toolkit Datum (List Issue) where
  toFrontend := Frontend.own
  read := Loaded.ofYaml
  text := .text
  validate values := (Settings.ofValues values).map (·.toSettings)

end CommandLine

end JavaOutline
