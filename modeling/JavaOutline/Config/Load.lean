import JavaOutline.Config.Settings
import JavaOutline.Files.Tree
import JavaOutline.Log

/-! # Loading settings

Settings come in layers: those of the caller over those of a configuration file over the defaults.
A file that is missing or that cannot be read counts as empty; the log says so.

How the bytes of a file are read, and how named values are checked and made into settings, is left
open: `read` and `validate` may be any functions. -/

namespace JavaOutline

/-- What reading the bytes of a configuration file comes to. -/
inductive Loaded (δ : Type) where
  /-- A mapping with its entries in order. A name that is no text is left out. -/
  | mapping (entries : List (Option String × δ))
  /-- A value that is no mapping. -/
  | other
  /-- The reader finds fault with the text. -/
  | unreadable
  /-- The bytes are no UTF-8. -/
  | undecodable
  /-- The reader gives up for another reason. -/
  | failed (reason : String)
deriving Repr, Inhabited

/-- Why there are no settings. -/
inductive LoadError (ε : Type) where
  /-- The values do not fit. -/
  | invalid (e : ε)
  /-- Some name is not a text. -/
  | nameNotText
  | undecodable
  | failed (reason : String)
deriving DecidableEq, Repr, Inhabited

/-- Why there are no settings, where `report` says what is wrong with values. -/
def LoadError.message {ε : Type} (report : ε → String) : LoadError ε → String
  | .invalid e => report e
  | .nameNotText => "keywords must be strings"
  | .undecodable => "malformed text"
  | .failed reason => reason

namespace Settings

variable {δ ε σ : Type}

/-! ## Layers -/

/-- Put a value under a name, at the name's place if it has one. -/
def put (name : String) (d : δ) : List (String × δ) → List (String × δ)
  | [] => [(name, d)]
  | (n, e) :: r => if n = name then (n, d) :: r else (n, e) :: put name d r

/-- The values of an upper layer over those of a lower one; the upper layer may say nothing under a
name. -/
def layer (lower : List (String × δ)) (upper : List (String × Option δ)) : List (String × δ) :=
  upper.foldl (fun vs p =>
    match p.2 with
    | none => vs
    | some d => put p.1 d vs) lower

/-- The named values of a mapping, if all names are texts. -/
def valuesOf? : List (Option String × δ) → Option (List (String × δ))
  | [] => some []
  | (some k, d) :: r => (valuesOf? r).map ((k, d) :: ·)
  | (none, _) :: _ => none

/-! ## The configuration file -/

/-- The file that is read when none is named. -/
def defaultFile : String := "javamodel.config.yaml"

/-- The entries of the configuration file; only a mapping has any. -/
def fileEntries (read : ByteArray → Loaded δ) (t : FileTree) (path : Option String) :
    Log × Except (LoadError ε) (List (Option String × δ)) :=
  let explicit := path.filter (!·.isEmpty)
  let target := explicit.getD defaultFile
  let loaded := LogEntry.info ("Loaded configuration from " ++ target)
  match t.find? (Path.ofString target) with
  | some (.file bytes) => match read bytes with
    | .mapping entries => ([loaded], .ok entries)
    | .other => ([loaded], .ok [])
    | .unreadable => ([.warning ("Failed to load config file " ++ target)], .ok [])
    | .undecodable => ([], .error .undecodable)
    | .failed reason => ([], .error (.failed reason))
  | _ => match explicit with
    | some p => ([.warning ("Config file not found at explicit path: " ++ p)], .ok [])
    | none =>
      ([.info ("No config file found at " ++ defaultFile ++ ", using defaults.")], .ok [])

/-- The settings that entries and the values of the caller come to. -/
def ofEntries (validate : List (String × δ) → Except ε σ) (caller : List (String × Option δ))
    (entries : List (Option String × δ)) : Except (LoadError ε) σ :=
  match valuesOf? entries with
  | none => .error .nameNotText
  | some values => (validate (layer values caller)).mapError .invalid

/-- The settings of a configuration file under those of the caller. -/
def load (read : ByteArray → Loaded δ) (validate : List (String × δ) → Except ε σ) (t : FileTree)
    (path : Option String) (caller : List (String × Option δ)) :
    Log × Except (LoadError ε) σ :=
  let (log, entries) := fileEntries read t path
  (log, entries >>= ofEntries validate caller)

end Settings

end JavaOutline
