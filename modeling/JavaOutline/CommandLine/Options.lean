import JavaOutline.Text.Quoted

/-! # Options of the command line

Arguments are options, with a value behind them or behind an equals sign, or the one path. A long
option may be shortened as long as it stays the only one that starts like that. Everything behind a
bare double hyphen is no option. -/

namespace JavaOutline.CommandLine

/-- What the arguments ask for. -/
structure Options where
  path : String := ""
  config : Option String := none
  listClasses : Bool := false
  className : Option String := none
  render : Bool := false
  logLevel : Option String := none
  noProgress : Bool := false
deriving DecidableEq, Repr, Inhabited

/-- The options. -/
inductive Flag where
  | help
  | config
  | listClasses
  | className
  | render
  | logLevel
  | noProgress
deriving DecidableEq, Repr, Inhabited

/-- Why arguments are refused. -/
inductive UsageError where
  | ambiguous (arg : String) («matches» : List String)
  | expectedValue (option : String)
  | unexpectedValue (option value : String)
  | missingPath
  | unrecognized (args : List String)
  /-- Help was asked for. -/
  | help
deriving DecidableEq, Repr, Inhabited

def UsageError.message : UsageError → String
  | .ambiguous arg «matches» =>
    "ambiguous option: " ++ arg ++ " could match " ++ ", ".intercalate «matches»
  | .expectedValue option => "argument " ++ option ++ ": expected one argument"
  | .unexpectedValue option value =>
    "argument " ++ option ++ ": ignored explicit argument " ++ Text.quoted value
  | .missingPath => "the following arguments are required: path"
  | .unrecognized args => "unrecognized arguments: " ++ " ".intercalate args
  | .help => ""

/-- The line that reports an error. -/
def UsageError.report (e : UsageError) : String := "java-model: error: " ++ e.message

/-- How the program is called. -/
def usage : String :=
  "usage: java-model [-h] [--config CONFIG] [--list-classes] [--class CLASS_NAME] [--render]\n" ++
  "                  [--log-level LOG_LEVEL] [--no-progress]\n" ++
  "                  path"

namespace Flag

/-- All ways to write an option, in order. -/
def names : List (String × Flag) :=
  [("-h", .help), ("--help", .help), ("--config", .config), ("--list-classes", .listClasses),
   ("--class", .className), ("--render", .render), ("--log-level", .logLevel),
   ("--no-progress", .noProgress)]

/-- Options that take a value. -/
def takesValue : Flag → Bool
  | .config | .className | .logLevel => true
  | _ => false

/-- The option's name in messages. -/
def title : Flag → String
  | .help => "-h/--help"
  | .config => "--config"
  | .listClasses => "--list-classes"
  | .className => "--class"
  | .render => "--render"
  | .logLevel => "--log-level"
  | .noProgress => "--no-progress"

/-- Options with the value given to them. -/
def apply (f : Flag) (value : String) (o : Options) : Options :=
  match f with
  | .help => o
  | .config => { o with config := some value }
  | .listClasses => { o with listClasses := true }
  | .className => { o with className := some value }
  | .render => { o with render := true }
  | .logLevel => { o with logLevel := some value }
  | .noProgress => { o with noProgress := true }

end Flag

/-! ## Kinds of arguments -/

/-- What an argument is by itself. -/
inductive Arg where
  | positional (text : String)
  /-- An option with the value behind its equals sign. -/
  | option (flag : Flag) (value : Option String)
  /-- It looks like an option, but there is none. -/
  | unknown (text : String)
  /-- The first bare double hyphen. -/
  | separator
deriving DecidableEq, Repr, Inhabited

/-- Cut at the first equals sign. -/
def cutValue (s : List Char) : List Char × Option String :=
  match s.dropWhile (· != '=') with
  | _ :: v => (s.takeWhile (· != '='), some (String.ofList v))
  | [] => (s, none)

/-- A negative number. -/
def isNegativeNumber (s : List Char) : Bool :=
  match s with
  | '-' :: r =>
    let whole := r.takeWhile Char.isDigit
    match r.dropWhile Char.isDigit with
    | [] => !whole.isEmpty
    | '.' :: f => !f.isEmpty && f.all Char.isDigit
    | _ => false
  | _ => false

/-- The options that an argument may be short for, as they are written. -/
def candidates (s : List Char) : List (String × Flag × Option String) :=
  match s with
  | '-' :: '-' :: _ =>
    let (start, value) := cutValue s
    (Flag.names.filter fun n => start.isPrefixOf n.1.toList).map fun n => (n.1, n.2, value)
  | '-' :: 'h' :: v => [("-h", .help, some (String.ofList v))]
  | _ => []

/-- Tell what an argument is. -/
def classify (arg : String) : Except UsageError Arg :=
  let s := arg.toList
  if s.head? ≠ some '-' ∨ s.length = 1 then .ok (.positional arg)
  else match Flag.names.lookup arg with
    | some f => .ok (.option f none)
    | none =>
      let (start, value) := cutValue s
      match value.bind fun v => (Flag.names.lookup (String.ofList start)).map (·, v) with
      | some (f, v) => .ok (.option f (some v))
      | none => match candidates s with
        | [(_, f, v)] => .ok (.option f v)
        | [] =>
          if isNegativeNumber s || s.contains ' ' then .ok (.positional arg)
          else .ok (.unknown arg)
        | cs => .error (.ambiguous arg (cs.map (·.1)))

/-- Tell what arguments are; behind the separator none is an option. -/
def classifyAll : List String → Except UsageError (List Arg)
  | [] => .ok []
  | a :: as =>
    if a = "--" then .ok (.separator :: as.map .positional)
    else do
      let arg ← classify a
      let args ← classifyAll as
      pure (arg :: args)

/-! ## Reading -/

/-- What reading has come to. -/
structure Reading where
  options : Options := {}
  hasPath : Bool := false
  /-- Arguments that nothing is done with, last first. -/
  extras : List String := []
deriving Repr, Inhabited

/-- Leave an argument over. -/
def Reading.leave (r : Reading) (text : String) : Reading := { r with extras := text :: r.extras }

/-- The first positional argument is the path. A separator next to it goes with it; any other is
left over. -/
def readArgs : List Arg → Reading → Except UsageError Reading
  | [], r => .ok r
  | .positional t :: as, r =>
    if r.hasPath then readArgs as (r.leave t)
    else
      let r := { r with options := { r.options with path := t }, hasPath := true }
      match as with
      | .separator :: as => readArgs as r
      | as => readArgs as r
  | .unknown t :: as, r => readArgs as (r.leave t)
  | .separator :: as, r =>
    if r.hasPath || as.isEmpty then readArgs as (r.leave "--") else readArgs as r
  | .option f (some v) :: as, r =>
    if f.takesValue then readArgs as { r with options := f.apply v r.options }
    else .error (.unexpectedValue f.title v)
  | .option f none :: as, r =>
    if f.takesValue then
      match as with
      | .positional v :: as => readArgs as { r with options := f.apply v r.options }
      | _ => .error (.expectedValue f.title)
    else if f = .help then .error .help
    else readArgs as { r with options := f.apply "" r.options }

/-- The options that arguments ask for. -/
def Options.ofArgs (args : List String) : Except UsageError Options := do
  let r ← readArgs (← classifyAll args) {}
  if !r.hasPath then .error .missingPath
  else if !r.extras.isEmpty then .error (.unrecognized r.extras.reverse)
  else pure r.options

end JavaOutline.CommandLine
