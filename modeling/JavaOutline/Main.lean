import JavaOutline.Host
import JavaOutline.Program

/-! # The program

Reads the files that a run can ask for, runs, and writes what the run has written. -/

namespace JavaOutline.CommandLine

/-- The part of the file system that a run can ask for. -/
def loadTree (o : Options) : IO FileTree := do
  let config := Path.ofString ((o.config.filter (!·.isEmpty)).getD Settings.defaultFile)
  let (d, t) ← FileTree.addPath config (← FileTree.ofHost)
  FileTree.addProject (Path.ofString o.path) (← FileTree.addFile d t)

end JavaOutline.CommandLine

open JavaOutline JavaOutline.CommandLine in
/-- Run with the arguments of the command line. -/
def main (args : List String) : IO UInt32 := do
  match Options.ofArgs args with
  | .error .help => do
    IO.println usage
    return 0
  | .error e => do
    IO.eprintln e.report
    return 2
  | .ok options => do
    let outcome := run Toolkit.own (← loadTree options) options
    IO.print outcome.out
    IO.eprint outcome.err
    match outcome.ending with
    | .exit code => return UInt32.ofNat code
    | ending => do
      IO.eprintln (ending.message Issue.report)
      return 1
